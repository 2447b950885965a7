import RagService.Foundation.Sorting
import RagService.Query.Retrieve

/-!
# Fused candidates

What the fusion makes of two lists of rows: one item for each chunk, in the order of the
dense rows and then of the other lexical rows, with its fused score; the items are sorted
by their scores.
-/

namespace RagService
namespace QueryService

open Sorting

/-!
# Retrieval from rows

`fuse` and `retrieve`, from the rows on.
-/

/-- `fuse`, from the rows on. -/
def fuseRows (b : Backend) (cfg : RetrievalSettings) (dense : List Ranked)
    (lexical : List Candidate) : Except Exception (List MergedResult) := do
  let merged ← mergeDense b [] dense
  let merged ← assignScores (mergeLexical merged lexical)
    (weightedRrfScores b cfg (dense.map fun row => row.1.1.id) (lexical.map fun row => row.1.id))
  return sortByScore merged.values

/-- `retrieve`, from the rows on. -/
def retrieveRows (b : Backend) (cfg : RetrievalSettings) (db : Db) (n : Nat) (obj : RetrieveParam)
    (dense : List Ranked) (lexical : List Candidate) :
    Except Exception (List GetSourceDetail) := do
  let ordered ← fuseRows b cfg dense lexical
  let ordered ← rerankResults b obj.question ordered
  let ordered := selectContextResults cfg ordered obj.topK
  let parentContent := getParentContent cfg db n ordered
  return (ordered.zipIdx 1).map fun (item, index) => source b parentContent item index

theorem retrieve_eq (env : Env) (b : Backend) (cfg : RetrievalSettings) (db : Db) (n userId : Nat)
    (isAdmin : Bool) (obj : RetrieveParam) :
    retrieve env b cfg db n userId isAdmin obj = (do
      let ids ← accessibleKbIds db n userId isAdmin obj.knowledgeBaseIds
      let vector ← embedQuestion b obj.question
      retrieveRows b cfg db n obj (denseRows b cfg db n vector (candidates db n ids))
        (lexicalRows env b cfg obj.question (candidates db n ids))) :=
  rfl

def MergedResult.row (item : MergedResult) : Candidate :=
  (item.chunk, item.name)

def unionRows (dense : List Ranked) (lexical : List Candidate) : List Candidate :=
  dense.map Prod.fst ++
    lexical.filter fun row => row.1.id ∉ dense.map fun row => row.1.1.id

/-!
# Merging

The merged rows are those of the union, each with its id for a key; rows are merged if all of
them have distances.
-/

section

variable {b : Backend} {cfg : RetrievalSettings} {dense : List Ranked} {lexical : List Candidate}
variable {merged merged' : Dict Nat MergedResult}

def keyed (p : Nat × MergedResult) : Nat × Candidate :=
  (p.1, p.2.row)

theorem mergeDense_ok (hids : (dense.map fun row => row.1.1.id).Nodup)
    (hnew : forall row, row ∈ dense -> row.1.1.id ∉ merged.map Prod.fst)
    (h : mergeDense b merged dense = .ok merged') :
    exists extra, merged' = merged ++ extra ∧
      extra.map keyed = (dense.map fun row => (row.1.1.id, row.1)) ∧
        forall p, p ∈ extra -> p.2.rerank = none := by
  induction dense generalizing merged with
  | nil =>
      cases h
      exact ⟨[], (List.append_nil _).symm, rfl, fun _ h => absurd h List.not_mem_nil⟩
  | cons row rest ih =>
      rcases row with ⟨⟨chunk, name⟩, value⟩
      rw [List.map_cons, List.nodup_cons] at hids
      cases value with
      | none => cases h
      | some value =>
          unfold mergeDense at h
          have hfresh := hnew _ List.mem_cons_self
          rw [Dict.set_of_not_mem hfresh] at h
          have hnew' : forall later, later ∈ rest -> later.1.1.id ∉
              (merged ++ [(chunk.id, (⟨chunk, name, 0, max 0 (b.float (1 - value)), none⟩ :
                MergedResult))]).map Prod.fst := by
            intro later hlater hmem
            rw [List.map_append, List.mem_append] at hmem
            cases hmem with
            | inl hold => exact hnew later (List.mem_cons_of_mem _ hlater) hold
            | inr hlast =>
                have hsame : later.1.1.id = chunk.id := List.mem_singleton.mp hlast
                apply hids.1
                show chunk.id ∈ _
                rw [← hsame]
                exact List.mem_map_of_mem (f := fun row : Ranked => row.1.1.id) hlater
          rcases ih hids.2 hnew' h with ⟨extra, happend, hrows, hnone⟩
          exists (chunk.id, ⟨chunk, name, 0, max 0 (b.float (1 - value)), none⟩) :: extra
          constructor
          · rw [happend, List.append_assoc]
            rfl
          · constructor
            · rw [List.map_cons, List.map_cons, hrows]
              rfl
            · intro p hp
              cases List.mem_cons.mp hp with
              | inl heq => rw [heq]
              | inr hin => exact hnone p hin

theorem exists_mergeDense_iff (merged : Dict Nat MergedResult) :
    (exists merged', mergeDense b merged dense = .ok merged') ↔
      forall row, row ∈ dense -> row.2 ≠ none := by
  induction dense generalizing merged with
  | nil =>
      constructor
      · intro _ row hrow
        cases hrow
      · intro _
        exact ⟨merged, rfl⟩
  | cons row rest ih =>
      rcases row with ⟨⟨chunk, name⟩, value⟩
      cases value with
      | none =>
          constructor
          · intro h
            rcases h with ⟨merged', h⟩
            cases h
          · intro h
            exact absurd rfl (h _ List.mem_cons_self)
      | some value =>
          rw [mergeDense, ih, List.forall_mem_cons]
          constructor
          · exact fun h => ⟨Option.some_ne_none value, h⟩
          · exact fun h => h.2

theorem mergeLexical_eq (hids : (lexical.map fun row => row.1.id).Nodup)
    (merged : Dict Nat MergedResult) :
    mergeLexical merged lexical = merged ++
      (lexical.filter fun row => row.1.id ∉ merged.map Prod.fst).map fun row =>
        (row.1.id, ⟨row.1, row.2, 0, 0, none⟩) := by
  induction lexical generalizing merged with
  | nil => exact (List.append_nil _).symm
  | cons row rest ih =>
      rcases row with ⟨chunk, name⟩
      rw [List.map_cons, List.nodup_cons] at hids
      have hstep : mergeLexical merged ((chunk, name) :: rest) =
          mergeLexical (merged.setDefault chunk.id ⟨chunk, name, 0, 0, none⟩) rest := rfl
      rw [hstep, ih hids.2, List.filter_cons]
      unfold Dict.setDefault
      cases hget : merged.get chunk.id with
      | some found =>
          have hmem : chunk.id ∈ merged.map Prod.fst :=
            Dict.get_isSome_iff.mp (by rw [hget]; rfl)
          dsimp only
          rw [if_neg]
          rw [decide_eq_true_eq, not_not]
          exact hmem
      | none =>
          have hnot := Dict.get_eq_none_iff.mp hget
          dsimp only
          rw [if_pos (decide_eq_true hnot), Dict.set_of_not_mem hnot, List.append_assoc]
          congr 1
          rw [List.map_cons, List.singleton_append]
          congr 2
          apply List.filter_congr
          intro later hlater
          apply decide_eq_decide.mpr
          rw [List.map_append, List.map_singleton, List.mem_append, List.mem_singleton, not_or]
          constructor
          · exact fun h => h.1
          · intro h
            constructor
            · exact h
            · intro heq
              have hsame : later.1.id = chunk.id := heq
              apply hids.1
              show chunk.id ∈ _
              rw [← hsame]
              exact List.mem_map_of_mem (f := fun row : Candidate => row.1.id) hlater

/-!
# Scores

A list adds to the scores of its ids, by their ranks.
-/

def scored (scores : Dict Nat Rat) (p : Nat × MergedResult) : Nat × MergedResult :=
  match scores.get p.1 with
  | some score => (p.1, { p.2 with score := score })
  | none => p

theorem assignScores_eq {scores : Dict Nat Rat} (hkeys : (merged.map Prod.fst).Nodup)
    (hscores : (scores.map Prod.fst).Nodup)
    (hsub : forall id, id ∈ scores.map Prod.fst -> id ∈ merged.map Prod.fst) :
    assignScores merged scores = .ok (merged.map (scored scores)) := by
  induction scores generalizing merged with
  | nil =>
      have hid : merged.map (scored []) = merged.map id := by
        apply List.map_congr_left
        intro p _
        rfl
      rw [hid, List.map_id]
      rfl
  | cons first rest ih =>
      rcases first with ⟨id, score⟩
      rw [List.map_cons, List.nodup_cons] at hscores
      have hmem : id ∈ merged.map Prod.fst := hsub id List.mem_cons_self
      unfold assignScores
      cases hget : merged.get id with
      | none => exact absurd hmem (Dict.get_eq_none_iff.mp hget)
      | some item =>
          dsimp only
          rw [ih]
          · rw [Dict.set_of_mem hkeys hmem, List.map_map]
            congr 1
            apply List.map_congr_left
            intro p hp
            show scored rest (if p.1 = id then (id, { item with score := score }) else p) =
              scored ((id, score) :: rest) p
            by_cases hid : p.1 = id
            · have hitem : p.2 = item := by
                have hfound : merged.get p.1 = some p.2 := Dict.get_eq_some_of_mem hkeys hp
                rw [hid, hget] at hfound
                exact (Option.some.inj hfound).symm
              have hrest : Dict.get rest id = none := Dict.get_eq_none_iff.mpr hscores.1
              rw [if_pos hid]
              unfold scored
              rw [hid, hitem]
              dsimp only
              rw [hrest]
              unfold Dict.get
              rw [if_pos rfl]
            · rw [if_neg hid]
              unfold scored
              rw [Dict.get, if_neg fun heq => hid heq.symm]
          · rw [Dict.keys_set_of_mem hkeys hmem]
            exact hkeys
          · exact hscores.2
          · intro later hlater
            rw [Dict.keys_set_of_mem hkeys hmem]
            exact hsub later (List.mem_cons_of_mem _ hlater)

variable {rrfK : Nat} {weight : Rat} {scores : Dict Nat Rat} {ids : List Nat} {id : Nat}

theorem addRrfScores_get (hids : ids.Nodup) :
    (addRrfScores b rrfK weight scores ids).get id =
      if id ∈ ids then
        some (b.float ((scores.get id).getD 0 +
          b.float (weight / (rrfK + (ids.idxOf id + 1) : Nat))))
      else scores.get id := by
  have hfold : forall start : Nat, ((ids.zipIdx start).foldl (fun scores p =>
      scores.set p.1 (b.float ((scores.get p.1).getD 0 + b.float (weight / (rrfK + p.2 : Nat)))))
        scores).get id =
      if id ∈ ids then
        some (b.float ((scores.get id).getD 0 +
          b.float (weight / (rrfK + (ids.idxOf id + start) : Nat))))
      else scores.get id := by
    induction ids generalizing scores with
    | nil => exact fun _ => rfl
    | cons first rest ih =>
        intro start
        rw [List.nodup_cons] at hids
        rw [List.zipIdx_cons, List.foldl_cons, ih hids.2, Dict.get_set]
        by_cases hfirst : first = id
        · have hnot : id ∉ rest := hfirst ▸ hids.1
          have hmem : id ∈ first :: rest := List.mem_cons.mpr (.inl hfirst.symm)
          rw [if_pos hfirst, if_neg hnot, if_pos hmem, hfirst, List.idxOf_cons_self, Nat.zero_add]
        · rw [if_neg hfirst, List.idxOf_cons_ne _ hfirst]
          by_cases hrest : id ∈ rest
          · rw [if_pos hrest, if_pos (List.mem_cons_of_mem _ hrest), Nat.succ_add_eq_add_succ]
          · rw [if_neg hrest, if_neg]
            intro hmem
            cases List.mem_cons.mp hmem with
            | inl heq => exact hfirst heq.symm
            | inr hin => exact hrest hin
  exact hfold 1

theorem mem_keys_addRrfScores :
    id ∈ (addRrfScores b rrfK weight scores ids).map Prod.fst ↔
      id ∈ ids ∨ id ∈ scores.map Prod.fst := by
  have hfold : forall start : Nat, id ∈ ((ids.zipIdx start).foldl (fun scores p =>
      scores.set p.1 (b.float ((scores.get p.1).getD 0 + b.float (weight / (rrfK + p.2 : Nat)))))
        scores).map Prod.fst ↔ id ∈ ids ∨ id ∈ scores.map Prod.fst := by
    induction ids generalizing scores with
    | nil => simp
    | cons first rest ih =>
        intro start
        rw [List.zipIdx_cons, List.foldl_cons, ih, Dict.mem_keys_set, List.mem_cons, or_left_comm,
          or_assoc]
  exact hfold 1

theorem nodup_keys_addRrfScores (hkeys : (scores.map Prod.fst).Nodup) :
    ((addRrfScores b rrfK weight scores ids).map Prod.fst).Nodup := by
  have hfold : forall start : Nat, (((ids.zipIdx start).foldl (fun scores p =>
      scores.set p.1 (b.float ((scores.get p.1).getD 0 + b.float (weight / (rrfK + p.2 : Nat)))))
        scores).map Prod.fst).Nodup := by
    induction ids generalizing scores with
    | nil => exact fun _ => hkeys
    | cons first rest ih =>
        intro start
        rw [List.zipIdx_cons, List.foldl_cons]
        exact ih (Dict.nodup_keys_set hkeys) (start + 1)
  exact hfold 1

theorem mem_keys_weightedRrfScores {denseIds lexicalIds : List Nat} :
    id ∈ (weightedRrfScores b cfg denseIds lexicalIds).map Prod.fst ↔
      id ∈ denseIds ∨ id ∈ lexicalIds := by
  unfold weightedRrfScores
  rw [mem_keys_addRrfScores, mem_keys_addRrfScores, List.map_nil]
  constructor
  · intro h
    cases h with
    | inl hlexical => exact .inr hlexical
    | inr h => exact .inl (h.resolve_right List.not_mem_nil)
  · intro h
    cases h with
    | inl hdense => exact .inr (.inl hdense)
    | inr hlexical => exact .inl hlexical

/-!
# The fused items

Rows that can be merged are fused, and sorting by score is a stable sort, the highest first.
-/

/-- The items are those of the rows, with their fused scores. -/
structure ItemsOf (b : Backend) (cfg : RetrievalSettings) (dense : List Ranked)
    (lexical : List Candidate) (items : List MergedResult) : Prop where
  rows : items.map MergedResult.row = unionRows dense lexical
  score : forall item, item ∈ items ->
    (weightedRrfScores b cfg (dense.map fun row => row.1.1.id)
      (lexical.map fun row => row.1.id)).get item.chunk.id = some item.score
  rerank : forall item, item ∈ items -> item.rerank = none

theorem scored_keyed (scores : Dict Nat Rat) (p : Nat × MergedResult) :
    keyed (scored scores p) = keyed p ∧ (scored scores p).2.rerank = p.2.rerank := by
  unfold scored
  split
  · exact ⟨rfl, rfl⟩
  · exact ⟨rfl, rfl⟩

theorem mergeLexical_keyed (hdense : (dense.map fun row => row.1.1.id).Nodup)
    (hlexical : (lexical.map fun row => row.1.id).Nodup)
    (h : mergeDense b [] dense = .ok merged) :
    (mergeLexical merged lexical).map keyed =
        (unionRows dense lexical).map (fun row => (row.1.id, row)) ∧
      forall p, p ∈ mergeLexical merged lexical -> p.2.rerank = none := by
  obtain ⟨extra, happend, hrows, hnone⟩ :=
    mergeDense_ok hdense (fun _ _ => List.not_mem_nil) h
  rw [List.nil_append] at happend
  have hids : merged.map Prod.fst = dense.map fun row => row.1.1.id := by
    have hfirst := congrArg (List.map Prod.fst) hrows
    rw [List.map_map, List.map_map] at hfirst
    rw [happend]
    exact hfirst
  rw [mergeLexical_eq hlexical, hids]
  constructor
  · rw [List.map_append, List.map_map, happend, hrows]
    unfold unionRows
    rw [List.map_append, List.map_map]
    rfl
  · intro p hp
    cases List.mem_append.mp hp with
    | inl hold =>
        rw [happend] at hold
        exact hnone p hold
    | inr hnew =>
        rcases List.mem_map.mp hnew with ⟨row, -, rfl⟩
        rfl

theorem mem_unionRows_id {id : Nat} :
    id ∈ (unionRows dense lexical).map (fun row => row.1.id) ↔
      id ∈ dense.map (fun row => row.1.1.id) ∨ id ∈ lexical.map fun row => row.1.id := by
  unfold unionRows
  rw [List.map_append, List.map_map, List.mem_append]
  constructor
  · intro h
    cases h with
    | inl hdense => exact .inl hdense
    | inr hlexical =>
        right
        exact (List.filter_sublist.map _).subset hlexical
  · intro h
    by_cases hdense : id ∈ dense.map fun row => row.1.1.id
    · exact .inl hdense
    · right
      rcases List.mem_map.mp (h.resolve_left hdense) with ⟨row, hrow, rfl⟩
      exact List.mem_map.mpr ⟨row, List.mem_filter.mpr ⟨hrow, decide_eq_true hdense⟩, rfl⟩

theorem map_id_unionRows (dense : List Ranked) (lexical : List Candidate) :
    (unionRows dense lexical).map (fun row => row.1.id) =
      (dense.map fun row => row.1.1.id) ++
        (lexical.map fun row => row.1.id).filter fun i => i ∉ dense.map fun row => row.1.1.id := by
  unfold unionRows
  rw [List.map_append, List.map_map, List.filter_map]
  rfl

theorem nodup_unionRows (hdense : (dense.map fun row => row.1.1.id).Nodup)
    (hlexical : (lexical.map fun row => row.1.id).Nodup) :
    ((unionRows dense lexical).map fun row => row.1.id).Nodup := by
  unfold unionRows
  rw [List.map_append, List.map_map]
  apply List.Nodup.append hdense
  · exact hlexical.sublist (List.filter_sublist.map _)
  · intro id hin hout
    rcases List.mem_map.mp hout with ⟨row, hrow, rfl⟩
    exact of_decide_eq_true (List.mem_filter.mp hrow).2 hin

theorem fused_of_mergeDense (cfg : RetrievalSettings) (hdense : (dense.map fun row => row.1.1.id).Nodup)
    (hlexical : (lexical.map fun row => row.1.id).Nodup)
    (h : mergeDense b [] dense = .ok merged) :
    exists items, ItemsOf b cfg dense lexical items ∧
      fuseRows b cfg dense lexical = .ok (sortByScore items) := by
  rcases mergeLexical_keyed hdense hlexical h with ⟨hkeyed, hnone⟩
  have hkeys : (mergeLexical merged lexical).map Prod.fst =
      (unionRows dense lexical).map fun row => row.1.id := by
    have hfirst := congrArg (List.map Prod.fst) hkeyed
    rw [List.map_map, List.map_map] at hfirst
    exact hfirst
  let scores := weightedRrfScores b cfg (dense.map fun row => row.1.1.id)
    (lexical.map fun row => row.1.id)
  have hassigned : assignScores (mergeLexical merged lexical) scores =
      .ok ((mergeLexical merged lexical).map (scored scores)) := by
    apply assignScores_eq
    · rw [hkeys]
      exact nodup_unionRows hdense hlexical
    · exact nodup_keys_addRrfScores (nodup_keys_addRrfScores List.nodup_nil)
    · intro id hid
      rw [hkeys, mem_unionRows_id]
      exact mem_keys_weightedRrfScores.mp hid
  exists Dict.values ((mergeLexical merged lexical).map (scored scores))
  constructor
  · constructor
    · unfold Dict.values
      rw [List.map_map, List.map_map]
      have hrows := congrArg (List.map Prod.snd) hkeyed
      rw [List.map_map, List.map_map] at hrows
      have hid : (unionRows dense lexical).map
          (Prod.snd ∘ fun row : Candidate => (row.1.id, row)) = unionRows dense lexical := by
        exact List.map_id _
      rw [hid] at hrows
      rw [← hrows]
      apply List.map_congr_left
      intro p _
      exact congrArg Prod.snd (scored_keyed scores p).1
    · intro item hitem
      rcases List.mem_map.mp hitem with ⟨q, hq, rfl⟩
      rcases List.mem_map.mp hq with ⟨p, hp, rfl⟩
      -- the key of an item is the id of its chunk
      have hid : p.1 = p.2.chunk.id := by
        have hmem := List.mem_map_of_mem (f := keyed) hp
        rw [hkeyed] at hmem
        rcases List.mem_map.mp hmem with ⟨row, -, hrow⟩
        have hfirst := congrArg Prod.fst hrow
        have hsecond := congrArg (fun x => x.2.1.id) hrow
        exact hfirst.symm.trans hsecond
      have hsome : (scores.get p.1).isSome := by
        apply Dict.get_isSome_iff.mpr
        apply mem_keys_weightedRrfScores.mpr
        rw [← mem_unionRows_id, ← hkeys]
        exact List.mem_map_of_mem hp
      rcases Option.isSome_iff_exists.mp hsome with ⟨score, hscore⟩
      unfold scored
      rw [hscore]
      dsimp only
      rw [← hid]
      exact hscore
    · intro item hitem
      rcases List.mem_map.mp hitem with ⟨q, hq, rfl⟩
      rcases List.mem_map.mp hq with ⟨p, hp, rfl⟩
      rw [(scored_keyed scores p).2]
      exact hnone p hp
  · unfold fuseRows
    rw [h]
    show (do
      let merged ← assignScores (mergeLexical merged lexical) scores
      return sortByScore merged.values : Except Exception (List MergedResult)) = _
    rw [hassigned]
    rfl

theorem fused_of_ok (hdense : (dense.map fun row => row.1.1.id).Nodup)
    (hlexical : (lexical.map fun row => row.1.id).Nodup) {ordered : List MergedResult}
    (h : fuseRows b cfg dense lexical = .ok ordered) :
    exists items, ItemsOf b cfg dense lexical items ∧ ordered = sortByScore items := by
  cases hmerged : mergeDense b [] dense with
  | error e =>
      unfold fuseRows at h
      rw [hmerged] at h
      cases h
  | ok merged =>
      rcases fused_of_mergeDense cfg hdense hlexical hmerged with ⟨items, hitems, hfused⟩
      rw [h] at hfused
      exact ⟨items, hitems, Except.ok.inj hfused⟩

theorem sortByScore_eq (items : List MergedResult) :
    sortByScore items = sortOn (fun item => OrderDual.toDual item.score) items :=
  rfl

theorem perm_sortByScore (items : List MergedResult) : (sortByScore items).Perm items := by
  rw [sortByScore_eq]
  exact perm_sortOn _ items

variable {items : List MergedResult}

theorem ItemsOf.chunkIds (h : ItemsOf b cfg dense lexical items) :
    items.map (fun item => item.chunk.id) =
      (unionRows dense lexical).map fun row => row.1.id := by
  rw [← h.rows, List.map_map]
  rfl

theorem ItemsOf.nodup_sorted (h : ItemsOf b cfg dense lexical items)
    (hdense : (dense.map fun row => row.1.1.id).Nodup)
    (hlexical : (lexical.map fun row => row.1.id).Nodup) :
    ((sortByScore items).map fun item => item.chunk.id).Nodup := by
  rw [((perm_sortByScore items).map _).nodup_iff, h.chunkIds]
  exact nodup_unionRows hdense hlexical

end

end QueryService
end RagService
