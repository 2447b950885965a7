import RagService.Query.Fusion

/-!
# Fusion is monotone in both ranks

An id that ranks no worse than another in the dense and in the lexical list has no smaller
fused score, and a larger one when it ranks better in one of them; such an id is not placed
behind the other by a retrieval.
-/

namespace RagService
namespace Fusion

open Sorting QueryService

/-- The first id ranks no worse; being absent is worse than any rank. -/
def NoWorse (ids : List Nat) (id other : Nat) : Prop :=
  other ∈ ids -> id ∈ ids ∧ ids.idxOf id ≤ ids.idxOf other

def Better (ids : List Nat) (id other : Nat) : Prop :=
  id ∈ ids ∧ (other ∈ ids -> ids.idxOf id < ids.idxOf other)

/-- The first id ranks no worse in both lists and better in one. -/
structure Dominates (denseIds lexicalIds : List Nat) (id other : Nat) : Prop where
  dense : NoWorse denseIds id other
  lexical : NoWorse lexicalIds id other
  better : Better denseIds id other ∨ Better lexicalIds id other

/-- What a rounding of numbers to floats does. -/
structure Rounding (float : Rat -> Rat) : Prop where
  mono : Monotone float
  zero : float 0 = 0
  idem : forall q, float (float q) = float q

/-!
# Scores

What a list gives to an id, and nothing if the id is absent: without rounding a better rank
gives more.
-/

section

variable {b : Backend} {cfg : RetrievalSettings} {weight : Rat} {rrfK : Nat}
variable {ids denseIds lexicalIds : List Nat} {id other : Nat}

def term (b : Backend) (rrfK : Nat) (weight : Rat) (ids : List Nat) (id : Nat) : Rat :=
  if id ∈ ids then b.float (weight / (rrfK + (ids.idxOf id + 1) : Nat)) else 0

theorem Rounding.exact (h : forall q, b.float q = q) : Rounding b.float := by
  constructor
  · intro p q hpq
    rw [h, h]
    exact hpq
  · exact h 0
  · exact fun q => h (b.float q)

theorem weight_div_le (hweight : 0 ≤ weight) {m n : Nat} (h : m ≤ n) :
    weight / (rrfK + (n + 1) : Nat) ≤ weight / (rrfK + (m + 1) : Nat) := by
  apply div_le_div_of_nonneg_left hweight
  · exact_mod_cast Nat.succ_pos (rrfK + m)
  · exact_mod_cast Nat.add_le_add_left (Nat.add_le_add_right h 1) rrfK

theorem weight_div_lt (hweight : 0 < weight) {m n : Nat} (h : m < n) :
    weight / (rrfK + (n + 1) : Nat) < weight / (rrfK + (m + 1) : Nat) := by
  apply div_lt_div_of_pos_left hweight
  · exact_mod_cast Nat.succ_pos (rrfK + m)
  · exact_mod_cast Nat.add_lt_add_left (Nat.add_lt_add_right h 1) rrfK

theorem weight_div_pos (hweight : 0 < weight) (n : Nat) :
    0 < weight / (rrfK + (n + 1) : Nat) := by
  apply div_pos hweight
  exact_mod_cast Nat.succ_pos (rrfK + n)

theorem Rounding.nonneg {float : Rat -> Rat} (h : Rounding float) {q : Rat} (hq : 0 ≤ q) :
    0 ≤ float q := by
  rw [← h.zero]
  exact h.mono hq

theorem term_nonneg (hround : Rounding b.float) (hweight : 0 ≤ weight) :
    0 ≤ term b rrfK weight ids id := by
  unfold term
  split
  · apply hround.nonneg
    exact div_nonneg hweight (Nat.cast_nonneg _)
  · exact le_refl 0

theorem term_mono (rrfK : Nat) (hround : Rounding b.float) (hweight : 0 ≤ weight)
    (h : NoWorse ids id other) :
    term b rrfK weight ids other ≤ term b rrfK weight ids id := by
  by_cases hother : other ∈ ids
  · rcases h hother with ⟨hid, hrank⟩
    unfold term
    rw [if_pos hother, if_pos hid]
    exact hround.mono (weight_div_le hweight hrank)
  · have hzero : term b rrfK weight ids other = 0 := if_neg hother
    rw [hzero]
    exact term_nonneg hround hweight

theorem term_lt (hexact : forall q, b.float q = q) (hweight : 0 < weight)
    (h : Better ids id other) : term b rrfK weight ids other < term b rrfK weight ids id := by
  unfold term
  rw [if_pos h.1]
  split
  · rename_i hother
    rw [hexact, hexact]
    exact weight_div_lt hweight (h.2 hother)
  · rw [hexact]
    exact weight_div_pos hweight _

theorem term_float (hround : Rounding b.float) :
    b.float (term b rrfK weight ids id) = term b rrfK weight ids id := by
  unfold term
  split
  · exact hround.idem _
  · exact hround.zero

theorem weightedRrfScores_get (hround : Rounding b.float) (hdense : denseIds.Nodup)
    (hlexical : lexicalIds.Nodup) :
    (weightedRrfScores b cfg denseIds lexicalIds).get id =
      if id ∈ lexicalIds then
        some (b.float (term b cfg.rrfK cfg.denseRrfWeight denseIds id +
          term b cfg.rrfK cfg.lexicalRrfWeight lexicalIds id))
      else if id ∈ denseIds then some (term b cfg.rrfK cfg.denseRrfWeight denseIds id)
      else none := by
  have hfirst : (addRrfScores b cfg.rrfK cfg.denseRrfWeight [] denseIds).get id =
      if id ∈ denseIds then some (term b cfg.rrfK cfg.denseRrfWeight denseIds id) else none := by
    rw [addRrfScores_get hdense]
    by_cases hid : id ∈ denseIds
    · rw [if_pos hid, if_pos hid]
      unfold term
      rw [if_pos hid]
      show some (b.float (0 + _)) = _
      rw [zero_add, hround.idem]
    · rw [if_neg hid, if_neg hid]
      rfl
  have hdefault : ((addRrfScores b cfg.rrfK cfg.denseRrfWeight [] denseIds).get id).getD 0 =
      term b cfg.rrfK cfg.denseRrfWeight denseIds id := by
    rw [hfirst]
    split
    · rfl
    · rename_i hid
      exact (if_neg hid).symm
  unfold weightedRrfScores
  rw [addRrfScores_get hlexical, hdefault, hfirst]
  by_cases hid : id ∈ lexicalIds
  · rw [if_pos hid, if_pos hid]
    unfold term
    rw [if_pos hid]
  · rw [if_neg hid, if_neg hid]

theorem score_mono (hround : Rounding b.float) (hdenseWeight : 0 ≤ cfg.denseRrfWeight)
    (hlexicalWeight : 0 ≤ cfg.lexicalRrfWeight) (hdense : denseIds.Nodup)
    (hlexical : lexicalIds.Nodup) (hnoWorse : NoWorse denseIds id other)
    (hnoWorse' : NoWorse lexicalIds id other) {y : Rat}
    (hy : (weightedRrfScores b cfg denseIds lexicalIds).get other = some y) :
    exists x, (weightedRrfScores b cfg denseIds lexicalIds).get id = some x ∧ y ≤ x := by
  have hfirst := term_mono cfg.rrfK hround hdenseWeight hnoWorse
  have hsecond := term_mono cfg.rrfK hround hlexicalWeight hnoWorse'
  rw [weightedRrfScores_get hround hdense hlexical] at hy ⊢
  by_cases hother : other ∈ lexicalIds
  · rcases hnoWorse' hother with ⟨hid, -⟩
    rw [if_pos hother, Option.some.injEq] at hy
    rw [if_pos hid, ← hy]
    exact ⟨_, rfl, hround.mono (add_le_add hfirst hsecond)⟩
  · rw [if_neg hother] at hy
    by_cases hother' : other ∈ denseIds
    · rcases hnoWorse hother' with ⟨hid, -⟩
      rw [if_pos hother', Option.some.injEq] at hy
      rw [← hy]
      by_cases hid' : id ∈ lexicalIds
      · rw [if_pos hid']
        refine ⟨_, rfl, ?_⟩
        rw [← term_float hround]
        apply hround.mono
        have hpositive : 0 ≤ term b cfg.rrfK cfg.lexicalRrfWeight lexicalIds id :=
          term_nonneg hround hlexicalWeight
        linarith
      · rw [if_neg hid', if_pos hid]
        exact ⟨_, rfl, hfirst⟩
    · rw [if_neg hother'] at hy
      cases hy

theorem score_strictMono (hexact : forall q, b.float q = q)
    (hdenseWeight : 0 < cfg.denseRrfWeight) (hlexicalWeight : 0 < cfg.lexicalRrfWeight)
    (hdense : denseIds.Nodup) (hlexical : lexicalIds.Nodup)
    (h : Dominates denseIds lexicalIds id other) {y : Rat}
    (hy : (weightedRrfScores b cfg denseIds lexicalIds).get other = some y) :
    exists x, (weightedRrfScores b cfg denseIds lexicalIds).get id = some x ∧ y < x := by
  have hround := Rounding.exact hexact
  -- without rounding a score is the sum of what the two lists give
  have hsum : forall i z, (weightedRrfScores b cfg denseIds lexicalIds).get i = some z ->
      z = term b cfg.rrfK cfg.denseRrfWeight denseIds i +
        term b cfg.rrfK cfg.lexicalRrfWeight lexicalIds i := by
    intro i z hz
    rw [weightedRrfScores_get hround hdense hlexical] at hz
    split at hz
    · rw [Option.some.injEq, hexact] at hz
      exact hz.symm
    · rename_i hout
      have hzero : term b cfg.rrfK cfg.lexicalRrfWeight lexicalIds i = 0 := if_neg hout
      split at hz
      · rw [Option.some.injEq] at hz
        rw [hzero, add_zero, hz]
      · cases hz
  obtain ⟨x, hx, -⟩ := score_mono hround (le_of_lt hdenseWeight) (le_of_lt hlexicalWeight) hdense
    hlexical h.dense h.lexical hy
  refine ⟨x, hx, ?_⟩
  rw [hsum id x hx, hsum other y hy]
  cases h.better with
  | inl hbetter =>
      exact add_lt_add_of_lt_of_le (term_lt hexact hdenseWeight hbetter)
        (term_mono _ hround (le_of_lt hlexicalWeight) h.lexical)
  | inr hbetter =>
      exact add_lt_add_of_le_of_lt (term_mono _ hround (le_of_lt hdenseWeight) h.dense)
        (term_lt hexact hlexicalWeight hbetter)

end

/-!
# Places

A dominating id is merged before the other one.
-/

theorem Dominates.ne {denseIds lexicalIds : List Nat} {id other : Nat}
    (h : Dominates denseIds lexicalIds id other) : id ≠ other := by
  intro heq
  rw [heq] at h
  cases h.better with
  | inl hbetter => exact Nat.lt_irrefl _ (hbetter.2 hbetter.1)
  | inr hbetter => exact Nat.lt_irrefl _ (hbetter.2 hbetter.1)

theorem idxOf_lt_of_noWorse {ids : List Nat} {id other : Nat} (hne : id ≠ other)
    (h : NoWorse ids id other) (hother : other ∈ ids) : ids.idxOf id < ids.idxOf other := by
  rcases h hother with ⟨hid, hle⟩
  apply lt_of_le_of_ne hle
  intro heq
  exact hne (List.idxOf_inj hid |>.mp heq)

theorem pair_sublist_unionIds {denseIds lexicalIds : List Nat} {id other : Nat}
    (h : Dominates denseIds lexicalIds id other)
    (hother : other ∈ denseIds ∨ other ∈ lexicalIds) :
    [id, other].Sublist (denseIds ++ lexicalIds.filter fun i => i ∉ denseIds) := by
  by_cases hother' : other ∈ denseIds
  · have hpair := pair_sublist_of_idxOf_lt (h.dense hother').1 hother'
      (idxOf_lt_of_noWorse h.ne h.dense hother')
    exact hpair.trans (List.sublist_append_left _ _)
  · have hlexical := hother.resolve_left hother'
    have hid := (h.lexical hlexical).1
    have hpair := pair_sublist_of_idxOf_lt hid hlexical
      (idxOf_lt_of_noWorse h.ne h.lexical hlexical)
    by_cases hid' : id ∈ denseIds
    · have hlater : other ∈ lexicalIds.filter fun i => i ∉ denseIds :=
        List.mem_filter.mpr ⟨hlexical, decide_eq_true hother'⟩
      exact (List.singleton_sublist.mpr hid').append (List.singleton_sublist.mpr hlater)
    · have hfiltered := hpair.filter fun i => decide (i ∉ denseIds)
      have hboth : [id, other].filter (fun i => decide (i ∉ denseIds)) = [id, other] := by
        apply List.filter_eq_self.mpr
        intro i hi
        apply decide_eq_true
        cases List.mem_cons.mp hi with
        | inl heq => exact heq ▸ hid'
        | inr hin => exact List.mem_singleton.mp hin ▸ hother'
      rw [hboth] at hfiltered
      exact hfiltered.trans (List.sublist_append_right _ _)

/-!
# Retrieval

When nothing reorders the fused candidates, a dominating item that is merged before the other
one stays before it.
-/

section

variable {b : Backend} {cfg : RetrievalSettings} {db : Db} {n : Nat} {ids : List Nat}

theorem nodup_candidates (h : ((allChunks db n).map Chunk.id).Nodup) :
    ((QueryService.candidates db n ids).map fun row => row.1.id).Nodup := by
  have hsub : ((QueryService.candidates db n ids).map fun row => row.1.id).Sublist
      ((allChunks db n).map Chunk.id) := by
    unfold QueryService.candidates
    generalize allChunks db n = chunks
    induction chunks with
    | nil => exact List.Sublist.refl _
    | cons c rest ih =>
        rw [List.filterMap_cons, List.map_cons]
        cases hc : candidate db ids c with
        | none => exact ih.cons _
        | some row =>
            rcases Option.map_eq_some_iff.mp hc with ⟨d, -, hrow⟩
            rw [← hrow, List.map_cons]
            exact ih.cons_cons _
  exact h.sublist hsub

theorem nodup_denseRows {vector : Embedding} {rows : List Candidate}
    (h : (rows.map fun row => row.1.id).Nodup) :
    ((denseRows b cfg db n vector rows).map fun row => row.1.1.id).Nodup := by
  unfold denseRows
  apply List.Nodup.sublist ((List.take_sublist _ _).map _)
  have hperm := (List.perm_insertionSort (Nearer b)
    ((rows.filter fun row => b.indexScan db n vector row.1).map fun row =>
      (row, row.1.embedding.map fun e => b.cosineDistance e vector))).map fun row => row.1.1.id
  rw [hperm.nodup_iff, List.map_map]
  exact h.sublist (List.filter_sublist.map _)

theorem nodup_lexicalRows {env : Env} {question : Text} {rows : List Candidate}
    (h : (rows.map fun row => row.1.id).Nodup) :
    ((lexicalRows env b cfg question rows).map fun row => row.1.id).Nodup := by
  unfold lexicalRows
  apply List.Nodup.sublist ((List.take_sublist _ _).map _)
  have hperm := (List.perm_insertionSort (Stronger env b question) (rows.filter fun row =>
    b.textMatch row.1.searchText (Lexical.buildWebsearchQuery env question) ||
      exactMatch question row.1)).map fun row => row.1.id
  rw [hperm.nodup_iff]
  exact h.sublist (List.filter_sublist.map _)

theorem chunkIds_of_retrieveRows {obj : RetrieveParam} {dense : List Ranked}
    {lexical : List Candidate} {sources : List GetSourceDetail}
    (hrerank : forall documents, b.rerank obj.question documents = .ok [])
    (hparent : cfg.parentContextEnabled = false)
    (h : retrieveRows b cfg db n obj dense lexical = .ok sources) :
    exists ordered, fuseRows b cfg dense lexical = .ok ordered ∧
      sources.map GetSourceDetail.chunkId =
        (ordered.map fun item => item.chunk.id).take obj.topK := by
  unfold retrieveRows at h
  cases hfused : fuseRows b cfg dense lexical with
  | error e =>
      rw [hfused] at h
      cases h
  | ok ordered =>
      rw [hfused] at h
      have hsame : rerankResults b obj.question ordered = .ok ordered := by
        unfold rerankResults
        rw [hrerank]
        rfl
      change (do
        let ordered ← rerankResults b obj.question ordered
        let ordered := selectContextResults cfg ordered obj.topK
        let parentContent := getParentContent cfg db n ordered
        return (ordered.zipIdx 1).map fun p =>
          source b parentContent p.1 p.2 : Except Exception _) = .ok sources at h
      rw [hsame] at h
      have hselect : selectContextResults cfg ordered obj.topK = ordered.take obj.topK := by
        unfold selectContextResults
        rw [hparent]
        rfl
      have hsources := Except.ok.inj h
      refine ⟨ordered, rfl, ?_⟩
      have hfirst := List.zipIdx_map_fst 1 (ordered.take obj.topK)
      rw [← hsources, hselect, List.map_map, ← List.map_take]
      conv_rhs => rw [← hfirst, List.map_map]
      rfl

theorem pair_sublist_sortByScore (hround : Rounding b.float)
    (hdenseWeight : 0 ≤ cfg.denseRrfWeight) (hlexicalWeight : 0 ≤ cfg.lexicalRrfWeight)
    {dense : List Ranked} {lexical : List Candidate}
    (hdense : (dense.map fun row => row.1.1.id).Nodup)
    (hlexical : (lexical.map fun row => row.1.id).Nodup) {items : List MergedResult}
    (hitems : ItemsOf b cfg dense lexical items) {id other : Nat}
    (hdominates : Dominates (dense.map fun row => row.1.1.id) (lexical.map fun row => row.1.id)
      id other)
    (h : [id, other].Sublist (items.map fun item => item.chunk.id)) :
    [id, other].Sublist ((sortByScore items).map fun item => item.chunk.id) := by
  rcases exists_pair_of_map h with ⟨first, second, hpair, rfl, rfl⟩
  have hfirst := hitems.score first (hpair.subset List.mem_cons_self)
  have hsecond := hitems.score second (hpair.subset (List.mem_cons_of_mem _ List.mem_cons_self))
  have hsorted : [first, second].Sublist (sortByScore items) := by
    rw [sortByScore_eq]
    apply sublist_sortOn _ hpair
    rcases score_mono hround hdenseWeight hlexicalWeight hdense hlexical hdominates.dense
      hdominates.lexical hsecond with ⟨x, hx, hle⟩
    rw [hfirst, Option.some.injEq] at hx
    rw [List.pairwise_pair]
    show second.score ≤ first.score
    rw [hx]
    exact hle
  exact hsorted.map fun item => item.chunk.id

/-- A dominating candidate is not placed behind the other one. -/
theorem placed_before (hround : Rounding b.float) (hdenseWeight : 0 ≤ cfg.denseRrfWeight)
    (hlexicalWeight : 0 ≤ cfg.lexicalRrfWeight) {obj : RetrieveParam} {dense : List Ranked}
    {lexical : List Candidate} (hdense : (dense.map fun row => row.1.1.id).Nodup)
    (hlexical : (lexical.map fun row => row.1.id).Nodup)
    (hrerank : forall documents, b.rerank obj.question documents = .ok [])
    (hparent : cfg.parentContextEnabled = false) {sources : List GetSourceDetail}
    (h : retrieveRows b cfg db n obj dense lexical = .ok sources)
    {before after : List GetSourceDetail} {s : GetSourceDetail} {id : Nat}
    (hsources : sources = before ++ s :: after)
    (hdominates : Dominates (dense.map fun row => row.1.1.id) (lexical.map fun row => row.1.id)
      id s.chunkId) :
    exists earlier, earlier ∈ before ∧ earlier.chunkId = id := by
  rcases chunkIds_of_retrieveRows hrerank hparent h with ⟨ordered, hfused, hids⟩
  rcases fused_of_ok hdense hlexical hfused with ⟨items, hitems, rfl⟩
  -- the sources are the first of the sorted items
  have htake : before.map GetSourceDetail.chunkId ++
      s.chunkId :: after.map GetSourceDetail.chunkId <+:
        (sortByScore items).map fun item => item.chunk.id := by
    rw [hsources, List.map_append, List.map_cons] at hids
    rw [hids]
    exact List.take_prefix _ _
  have hmem : s.chunkId ∈ (unionRows dense lexical).map fun row => row.1.id := by
    rw [← hitems.chunkIds, ← ((perm_sortByScore items).map _).mem_iff]
    exact htake.subset (List.mem_append_right _ List.mem_cons_self)
  have hmerged := pair_sublist_unionIds hdominates (mem_unionRows_id.mp hmem)
  rw [← map_id_unionRows, ← hitems.chunkIds] at hmerged
  have hplaced := pair_sublist_sortByScore hround hdenseWeight hlexicalWeight hdense hlexical
    hitems hdominates hmerged
  have hnodup := hitems.nodup_sorted hdense hlexical
  rcases htake with ⟨rest, hrest⟩
  rw [← hrest, List.append_assoc, List.cons_append] at hplaced hnodup
  rcases List.mem_map.mp (mem_of_pair_sublist hnodup hplaced) with ⟨earlier, hearlier, heq⟩
  exact ⟨earlier, hearlier, heq⟩

end

/--
Fusion scores the union of the lists and is monotone in both ranks, strictly without
rounding; and a retrieval that nothing reorders places no candidate before one that
dominates it, however floats are rounded.
-/
theorem fusion_monotone (env : Env) (b : Backend) (cfg : RetrievalSettings)
    (hdenseWeight : 0 < cfg.denseRrfWeight) (hlexicalWeight : 0 < cfg.lexicalRrfWeight) :
    (forall denseIds lexicalIds id,
      id ∈ (weightedRrfScores b cfg denseIds lexicalIds).map Prod.fst ↔
        id ∈ denseIds ∨ id ∈ lexicalIds) ∧
    (Rounding b.float -> forall denseIds lexicalIds : List Nat, denseIds.Nodup ->
      lexicalIds.Nodup -> forall id other y, NoWorse denseIds id other ->
        NoWorse lexicalIds id other ->
          (weightedRrfScores b cfg denseIds lexicalIds).get other = some y ->
            exists x, (weightedRrfScores b cfg denseIds lexicalIds).get id = some x ∧ y ≤ x) ∧
    ((forall q, b.float q = q) -> forall denseIds lexicalIds : List Nat, denseIds.Nodup ->
      lexicalIds.Nodup -> forall id other y, Dominates denseIds lexicalIds id other ->
        (weightedRrfScores b cfg denseIds lexicalIds).get other = some y ->
          exists x, (weightedRrfScores b cfg denseIds lexicalIds).get id = some x ∧ y < x) ∧
    (Rounding b.float -> cfg.parentContextEnabled = false ->
      forall (db : Db) (n userId : Nat) (isAdmin : Bool) (obj : RetrieveParam),
        (forall documents, b.rerank obj.question documents = .ok []) ->
          ((allChunks db n).map Chunk.id).Nodup ->
            forall ids vector sources,
              accessibleKbIds db n userId isAdmin obj.knowledgeBaseIds = .ok ids ->
                embedQuestion b obj.question = .ok vector ->
                  retrieve env b cfg db n userId isAdmin obj = .ok sources ->
                    forall before s after id, sources = before ++ s :: after ->
                      Dominates
                        ((denseRows b cfg db n vector (QueryService.candidates db n ids)).map
                          fun row => row.1.1.id)
                        ((lexicalRows env b cfg obj.question
                          (QueryService.candidates db n ids)).map fun row => row.1.id)
                        id s.chunkId ->
                        exists earlier, earlier ∈ before ∧ earlier.chunkId = id) := by
  constructor
  · intro denseIds lexicalIds id
    exact mem_keys_weightedRrfScores
  constructor
  · intro hround denseIds lexicalIds hdense hlexical id other y hnoWorse hnoWorse' hy
    exact score_mono hround (le_of_lt hdenseWeight) (le_of_lt hlexicalWeight) hdense hlexical
      hnoWorse hnoWorse' hy
  constructor
  · intro hexact denseIds lexicalIds hdense hlexical id other y hdominates hy
    exact score_strictMono hexact hdenseWeight hlexicalWeight hdense hlexical hdominates hy
  · intro hround hparent db n userId isAdmin obj hrerank hunique ids vector sources hids hvector
      hretrieve before s after id hsources hdominates
    rw [retrieve_eq, hids] at hretrieve
    change (do
      let vector ← embedQuestion b obj.question
      retrieveRows b cfg db n obj (denseRows b cfg db n vector (QueryService.candidates db n ids))
        (lexicalRows env b cfg obj.question (QueryService.candidates db n ids))) =
          .ok sources at hretrieve
    rw [hvector] at hretrieve
    exact placed_before hround (le_of_lt hdenseWeight) (le_of_lt hlexicalWeight)
      (nodup_denseRows (nodup_candidates hunique)) (nodup_lexicalRows (nodup_candidates hunique))
      hrerank hparent hretrieve hsources hdominates

namespace FusionSample

def env : Env where
  sha256 := fun _ => []
  docxParagraphs := fun _ => .error (.other "BadZipFile".toList)
  pdfPages := fun _ => .error (.other "PdfReadError".toList)
  jiebaCut := fun text => text.map fun c => [c]
  casefold := Text.lowerAscii
  isAlnum := Lexical.isAsciiAlnum

def backend : Backend where
  cosineDistance := fun _ _ => 0
  indexScan := fun _ _ _ _ => true
  textMatch := fun _ _ => true
  tsRankCd := fun _ _ => 0
  place := Chunk.id
  float := id
  embed := fun texts => .ok (texts.map fun _ => [1])
  rerank := fun _ _ => .ok []

def settings : RetrievalSettings :=
  ⟨false, 30, 30, 60, 1, 1 / 2⟩

def chunk (id : Nat) : Chunk :=
  ⟨id, 1, 2, 0, ['a'], ['a'], ['a'], [['a']], [], 1, 1, some [1], 1, none, false, [], 0⟩

def db : Db where
  knowledgeBases := fun i => if i = 1 then some ⟨1, 1, ['a'], none, false, 0⟩ else none
  documents := fun i =>
    if i = 2 then
      some ⟨2, 1, ['a'], [], none, [], 1, [], none, .ready, none, 2, 1, none, 0, none, 0⟩
    else none
  chunks := fun i => if i = 2 then [chunk 3, chunk 4] else []
  profiles := fun _ => none
  events := fun _ => none

def question : RetrieveParam :=
  ⟨['a'], [1], 5⟩

theorem ranks :
    (denseRows backend settings db 5 [1] (QueryService.candidates db 5 [1])).map
        (fun row => row.1.1.id) = [3, 4] ∧
      (lexicalRows env backend settings question.question
        (QueryService.candidates db 5 [1])).map (fun row => row.1.id) = [3, 4] := by
  decide +kernel

theorem dominates_of_lt {ids : List Nat} {id other : Nat} (hid : id ∈ ids)
    (hlt : ids.idxOf id < ids.idxOf other) : Dominates ids ids id other := by
  have hnoWorse : NoWorse ids id other := fun _ => ⟨hid, Nat.le_of_lt hlt⟩
  exact ⟨hnoWorse, hnoWorse, .inl ⟨hid, fun _ => hlt⟩⟩

end FusionSample

open FusionSample in
/-- The better of two ids scores more, and the better of two chunks comes first. -/
theorem fusion_monotone_sample : (exists x,
    (weightedRrfScores backend settings [7, 8] [7, 8]).get 7 = some x ∧ 3 / 124 < x) ∧
    exists sources, retrieve env backend settings db 5 1 false question = .ok sources ∧
      forall before s after, sources = before ++ s :: after -> s.chunkId = 4 ->
        exists earlier, earlier ∈ before ∧ earlier.chunkId = 3 := by
  have hfusion := fusion_monotone env backend settings (by decide +kernel) (by decide +kernel)
  constructor
  · exact hfusion.2.2.1 (fun _ => rfl) [7, 8] [7, 8] (by decide) (by decide) 7 8 _
      (dominates_of_lt (by decide) (by decide)) (by decide +kernel)
  · have hfound : (match retrieve env backend settings db 5 1 false question with
        | .ok _ => true
        | .error _ => false) = true := by
      decide +kernel
    cases hretrieve : retrieve env backend settings db 5 1 false question with
    | error e =>
        rw [hretrieve] at hfound
        cases hfound
    | ok sources =>
        exists sources
        constructor
        · rfl
        · intro before s after hsources hs
          apply hfusion.2.2.2 (.exact fun _ => rfl) rfl db 5 1 false question (fun _ => rfl)
            (by decide +kernel) [1] [1] sources (by decide +kernel) (by decide +kernel) hretrieve
            before s after 3 hsources
          rw [ranks.1, ranks.2, hs]
          exact dominates_of_lt (by decide) (by decide)

end Fusion
end RagService
