import Mathlib.Analysis.SpecialFunctions.Log.Base
import RagService.Evaluation.Metrics
import RagService.Foundation.Discounts

/-!
# What the metrics measure

The percentile is the nearest rank, and nDCG is a normalized score that is one only for an
ideal ranking.
-/

namespace RagService
namespace Metrics

open Finset

/-!
# Percentiles

The value at a position of a sorted list has the values up to it at most itself, and a smaller
value has fewer; the position that `percentile` reads is one of the list.
-/

section Percentile

variable {α : Type} [LinearOrder α]

def countAtMost (values : List α) (v : α) : Nat :=
  values.countP fun x => x ≤ v

theorem countAtMost_sortOn (values : List α) (v : α) :
    countAtMost (Sorting.sortOn id values) v = countAtMost values v :=
  (Sorting.perm_sortOn id values).countP_eq _

variable {ordered : List α} {i : Nat} {v w : α}

theorem lt_countAtMost (hsorted : ordered.Pairwise fun x y => x ≤ y) (hv : ordered[i]? = some v) :
    i < countAtMost ordered v := by
  rcases List.getElem?_eq_some_iff.mp hv with ⟨hi, rfl⟩
  have hfront : forall x, x ∈ ordered.take (i + 1) -> decide (x ≤ ordered[i]) = true := by
    intro x hx
    rw [decide_eq_true_eq]
    rcases List.mem_take_iff_getElem.mp hx with ⟨j, hj, rfl⟩
    rcases Nat.lt_or_ge j i with hlt | hge
    · exact List.pairwise_iff_getElem.mp hsorted j i _ hi hlt
    · have hji : j = i := by omega
      subst hji
      exact le_rfl
  have hcount := List.countP_eq_length.mpr hfront
  rw [List.length_take_of_le hi] at hcount
  calc
    i < i + 1 := Nat.lt_succ_self i
    _ = (ordered.take (i + 1)).countP fun x => x ≤ ordered[i] := hcount.symm
    _ ≤ countAtMost ordered ordered[i] := (List.take_sublist _ _).countP_le

theorem countAtMost_le (hsorted : ordered.Pairwise fun x y => x ≤ y) (hv : ordered[i]? = some v)
    (hw : w < v) : countAtMost ordered w ≤ i := by
  rcases List.getElem?_eq_some_iff.mp hv with ⟨hi, rfl⟩
  have hback : (ordered.drop i).countP (fun x => x ≤ w) = 0 := by
    rw [List.countP_eq_zero]
    intro x hx
    rw [decide_eq_true_eq, not_le]
    rcases List.mem_drop_iff_getElem.mp hx with ⟨j, hj, rfl⟩
    rcases Nat.eq_zero_or_pos j with rfl | hpos
    · simpa using hw
    · exact hw.trans_le (List.pairwise_iff_getElem.mp hsorted i (i + j) hi _ (by omega))
  calc
    countAtMost ordered w = (ordered.take i ++ ordered.drop i).countP fun x => x ≤ w := by
      rw [List.take_append_drop, countAtMost]
    _ = (ordered.take i).countP fun x => x ≤ w := by rw [List.countP_append, hback, add_zero]
    _ ≤ (ordered.take i).length := List.countP_le_length
    _ ≤ i := List.length_take_le i ordered

variable {values : List α} {p q : Int}

/-- The least value of the list that at least `p` percent of the values are at most. -/
structure NearestRank (values : List α) (p : Int) (v : α) : Prop where
  mem : v ∈ values
  covers : p * values.length ≤ 100 * countAtMost values v
  least : forall w, w ∈ values -> p * values.length ≤ 100 * countAtMost values w -> v ≤ w

/-- The position that `percentile` reads is one of the list. -/
theorem percentile_position (hne : values ≠ []) (hlow : 1 ≤ p) (hhigh : p ≤ 100) :
    exists (i : Nat) (v : α), (Sorting.sortOn id values)[i]? = some v ∧ percentile values p = .ok v ∧
      100 * (i : Int) < p * values.length ∧ p * values.length ≤ 100 * ((i : Int) + 1) := by
  have hlength : (Sorting.sortOn id values).length = values.length :=
    (Sorting.perm_sortOn id values).length_eq
  have hpos : 0 < values.length := List.length_pos_iff.mpr hne
  have hleast : (values.length : Int) * 1 ≤ values.length * p :=
    mul_le_mul_of_nonneg_left hlow (Int.natCast_nonneg _)
  have hmost : (values.length : Int) * p ≤ values.length * 100 :=
    mul_le_mul_of_nonneg_left hhigh (Int.natCast_nonneg _)
  have hcomm : p * (values.length : Int) = values.length * p := mul_comm _ _
  generalize hindex : (max 0 (((values.length : Int) * p + 99) / 100 - 1)).toNat = i
  have hi : i < (Sorting.sortOn id values).length := by omega
  refine ⟨i, _, List.getElem?_eq_getElem hi, ?_, by omega, by omega⟩
  unfold percentile
  cases values with
  | nil => exact absurd rfl hne
  | cons x rest =>
      simp only
      rw [if_neg (not_not_intro ⟨by omega, hhigh⟩), hlength, hindex, List.getElem?_eq_getElem hi]

theorem nearestRank_of_position {i : Nat} {v : α} (hv : (Sorting.sortOn id values)[i]? = some v)
    (hbelow : 100 * (i : Int) < p * values.length)
    (habove : p * values.length ≤ 100 * ((i : Int) + 1)) : NearestRank values p v := by
  have hsorted := Sorting.pairwise_sortOn id values
  constructor
  · exact Sorting.mem_sortOn.mp (List.mem_of_getElem? hv)
  · have hcount := lt_countAtMost hsorted hv
    rw [countAtMost_sortOn] at hcount
    omega
  · intro w _ hcovers
    by_contra hlt
    have hcount := countAtMost_le hsorted hv (not_le.mp hlt)
    rw [countAtMost_sortOn] at hcount
    omega

theorem NearestRank.mono {v w : α} (hv : NearestRank values p v) (hw : NearestRank values q w)
    (hpq : p ≤ q) : v ≤ w := by
  apply hv.least w hw.mem
  have hscale : p * (values.length : Int) ≤ q * values.length :=
    mul_le_mul_of_nonneg_right hpq (Int.natCast_nonneg _)
  exact hscale.trans hw.covers

/-- The percentile is the nearest rank, and it does not decrease with its argument. -/
theorem percentile_nearest_rank (hne : values ≠ []) (hlow : 1 ≤ p) (hhigh : p ≤ 100) :
    exists v, percentile values p = .ok v ∧ NearestRank values p v ∧
      forall q w, p ≤ q -> q ≤ 100 -> percentile values q = .ok w -> v ≤ w := by
  rcases percentile_position hne hlow hhigh with ⟨i, v, hv, hvalue, hbelow, habove⟩
  have hrank := nearestRank_of_position hv hbelow habove
  refine ⟨v, hvalue, hrank, fun q w hpq hq hw => ?_⟩
  rcases percentile_position hne (hlow.trans hpq) hq with ⟨j, u, hu, hvalue', hbelow', habove'⟩
  rw [hw] at hvalue'
  cases hvalue'
  exact hrank.mono (nearestRank_of_position hu hbelow' habove') hpq

/-- Two of the five values make 40 percent. -/
theorem percentile_nearest_rank_forty :
    exists v, percentile [5, 3, 1, 3, (9 : Int)] 40 = .ok v ∧
      NearestRank [5, 3, 1, 3, (9 : Int)] 40 v ∧
      forall q w, 40 ≤ q -> q ≤ 100 -> percentile [5, 3, 1, 3, (9 : Int)] q = .ok w -> v ≤ w :=
  percentile_nearest_rank (by decide) (by decide) (by decide)

end Percentile

/-!
# Gains

The ranking that the ideal is computed from has the gains in descending order, so the first
ranked ids gain no more together than the largest gains do.
-/

section Gains

open Discounts

variable {K : Type} [Field K] [LinearOrder K] [IsStrictOrderedRing K]
variable {relevance : Dict Int Int} {rankedIds : List Int}

/-- Two is written with one numeral in every definition. -/
instance (priority := high) instAtLeastTwoTwo : Nat.AtLeastTwo 2 := inferInstance

def gains (relevance : Dict Int Int) : List K :=
  relevance.map fun item => (2 : K) ^ item.2 - 1

def largestGains (relevance : Dict Int Int) : List K :=
  Sorting.sortOn OrderDual.toDual (gains relevance)

omit [LinearOrder K] [IsStrictOrderedRing K] in
theorem gain_of_mem (hkeys : (relevance.map Prod.fst).Nodup) {item : Int × Int}
    (h : item ∈ relevance) : gain relevance item.1 = (2 : K) ^ item.2 - 1 := by
  rw [gain, Dict.get_eq_some_of_mem hkeys h, Option.getD_some]

omit [LinearOrder K] [IsStrictOrderedRing K] in
theorem gain_of_not_mem {chunkId : Int} (h : chunkId ∉ relevance.map Prod.fst) :
    gain relevance chunkId = (0 : K) := by
  rw [gain, Dict.get_eq_none_iff.mpr h, Option.getD_none, zpow_zero, sub_self]

omit [LinearOrder K] [IsStrictOrderedRing K] in
theorem map_gain_keys (hkeys : (relevance.map Prod.fst).Nodup) :
    (relevance.map Prod.fst).map (gain relevance) = (gains relevance : List K) := by
  rw [gains, List.map_map]
  exact List.map_congr_left fun item h => gain_of_mem hkeys h

theorem gains_nonneg (hgrades : forall item, item ∈ relevance -> 0 ≤ item.2) {g : K}
    (h : g ∈ gains relevance) : 0 ≤ g := by
  rcases List.mem_map.mp h with ⟨item, hitem, rfl⟩
  exact sub_nonneg.mpr (one_le_zpow₀ one_le_two (hgrades item hitem))

theorem gain_nonneg (hkeys : (relevance.map Prod.fst).Nodup)
    (hgrades : forall item, item ∈ relevance -> 0 ≤ item.2) (chunkId : Int) :
    0 ≤ (gain relevance chunkId : K) := by
  by_cases h : chunkId ∈ relevance.map Prod.fst
  · apply gains_nonneg hgrades
    rw [← map_gain_keys hkeys]
    exact List.mem_map_of_mem h
  · rw [gain_of_not_mem h]

theorem map_gain_idealIds (hkeys : (relevance.map Prod.fst).Nodup) :
    (idealIds relevance).map (gain relevance) = (largestGains relevance : List K) := by
  let order := fun item : Int × Int => OrderDual.toDual item.2
  have hmap : (idealIds relevance).map (gain relevance) =
      (Sorting.sortOn order relevance).map fun item => (2 : K) ^ item.2 - 1 := by
    rw [idealIds, List.map_map]
    exact List.map_congr_left fun item h => gain_of_mem hkeys (Sorting.mem_sortOn.mp h)
  have hsorted : ((idealIds relevance).map (gain relevance)).Pairwise fun x y : K => y ≤ x := by
    rw [hmap, List.pairwise_map]
    refine (Sorting.pairwise_sortOn order relevance).imp fun h => ?_
    exact sub_le_sub_right (zpow_le_zpow_right₀ one_le_two h) 1
  have hperm : ((idealIds relevance).map (gain relevance)).Perm (largestGains relevance : List K) := by
    rw [hmap]
    exact ((Sorting.perm_sortOn order relevance).map _).trans (Sorting.perm_sortOn _ _).symm
  exact hperm.eq_of_pairwise (fun _ _ _ _ h h' => le_antisymm h' h) hsorted
    (Sorting.pairwise_sortOn OrderDual.toDual (gains relevance))

omit [LinearOrder K] [IsStrictOrderedRing K] in
theorem sum_map_filter {α : Type} {f : α -> K} (p : α -> Prop) [DecidablePred p] {items : List α}
    (h : forall x, x ∈ items -> ¬ p x -> f x = 0) :
    (items.map f).sum = ((items.filter p).map f).sum := by
  induction items with
  | nil => rfl
  | cons x rest ih =>
      have hrest := ih fun y hy => h y (List.mem_cons_of_mem x hy)
      by_cases hp : p x
      · rw [List.filter_cons_of_pos (by simpa using hp), List.map_cons, List.map_cons,
          List.sum_cons, List.sum_cons, hrest]
      · rw [List.filter_cons_of_neg (by simpa using hp), List.map_cons, List.sum_cons, hrest,
          h x List.mem_cons_self hp, zero_add]

theorem sum_gains_le (hids : rankedIds.Nodup) (hkeys : (relevance.map Prod.fst).Nodup)
    (hgrades : forall item, item ∈ relevance -> 0 ≤ item.2) (n : Nat) :
    ((rankedIds.map (gain relevance)).take n).sum ≤
      ((largestGains relevance : List K).take n).sum := by
  let graded := (rankedIds.take n).filter fun chunkId => chunkId ∈ relevance.map Prod.fst
  have hsum : ((rankedIds.map (gain relevance)).take n).sum =
      (graded.map (gain relevance) : List K).sum := by
    rw [← List.map_take]
    exact sum_map_filter (fun chunkId => chunkId ∈ relevance.map Prod.fst)
      fun chunkId _ h => gain_of_not_mem h
  have hsubperm : (graded.map (gain relevance) : List K).Subperm (gains relevance) := by
    have hnodup : graded.Nodup := (hids.sublist (List.take_sublist n rankedIds)).filter _
    have hgraded : graded.Subperm (relevance.map Prod.fst) :=
      List.subperm_of_subset hnodup fun chunkId h => of_decide_eq_true (List.mem_filter.mp h).2
    rcases hgraded with ⟨arranged, hperm, hsublist⟩
    rw [← map_gain_keys hkeys]
    exact ⟨arranged.map (gain relevance), hperm.map _, hsublist.map _⟩
  rw [hsum]
  apply sum_le_largest (fun g => gains_nonneg hgrades) hsubperm
  rw [List.length_map]
  exact (List.length_filter_le _ _).trans (List.length_take_le n rankedIds)

/-!
# Discounted gains

The ideal exceeds the actual score by discounted differences with nonnegative prefix sums; they
vanish only for an ideal ranking.
-/

def weight (log2 : Nat -> K) (i : Nat) : K :=
  1 / log2 (i + 2)

omit [LinearOrder K] [IsStrictOrderedRing K] in
theorem dcg_eq_sum (log2 : Nat -> K) (relevance : Dict Int Int) (k : Nat) (ids : List Int) :
    dcg log2 relevance k ids =
      ∑ i ∈ range k, weight log2 i * (ids.map (gain relevance)).getD i 0 := by
  have hsum := sum_zipIdx (gain relevance : Int -> K) (fun rank => 1 / log2 (rank + 1)) ids k 1
  have hterm : (fun p : Int × Nat => 1 / log2 (p.2 + 1) * gain relevance p.1) =
      fun p => gain relevance p.1 / log2 (p.2 + 1) := by
    funext p
    rw [one_div, mul_comm, ← div_eq_mul_inv]
  rw [hterm] at hsum
  refine hsum.trans (sum_congr rfl fun i _ => ?_)
  rw [weight, Nat.add_comm 1 i]

omit [IsStrictOrderedRing K] in
theorem getD_nonneg {values : List K} (h : forall g, g ∈ values -> 0 ≤ g) (i : Nat) :
    0 ≤ values.getD i 0 := by
  rw [List.getD_eq_getElem?_getD]
  cases hget : values[i]? with
  | none => exact le_rfl
  | some g => exact h g (List.mem_of_getElem? hget)

variable {log2 : Nat -> K} {k : Nat}

theorem dcg_nonneg (hlog : forall i, 0 < weight log2 i) (hkeys : (relevance.map Prod.fst).Nodup)
    (hgrades : forall item, item ∈ relevance -> 0 ≤ item.2) (ids : List Int) :
    0 ≤ dcg log2 relevance k ids := by
  rw [dcg_eq_sum]
  apply sum_nonneg
  intro i _
  apply mul_nonneg (hlog i).le
  apply getD_nonneg
  intro g hg
  rcases List.mem_map.mp hg with ⟨chunkId, -, rfl⟩
  exact gain_nonneg hkeys hgrades chunkId

theorem ideal_sub_actual (hkeys : (relevance.map Prod.fst).Nodup) :
    dcg log2 relevance k (idealIds relevance) - dcg log2 relevance k rankedIds =
      ∑ i ∈ range k, weight log2 i *
        ((largestGains relevance : List K).getD i 0 - (rankedIds.map (gain relevance)).getD i 0) := by
  rw [dcg_eq_sum, dcg_eq_sum, map_gain_idealIds hkeys, ← sum_sub_distrib]
  exact sum_congr rfl fun i _ => (mul_sub _ _ _).symm

theorem differences_nonneg (hids : rankedIds.Nodup) (hkeys : (relevance.map Prod.fst).Nodup)
    (hgrades : forall item, item ∈ relevance -> 0 ≤ item.2) (n : Nat) :
    0 ≤ ∑ i ∈ range n,
      ((largestGains relevance : List K).getD i 0 - (rankedIds.map (gain relevance)).getD i 0) := by
  rw [sum_sub_distrib, ← sum_take, ← sum_take, sub_nonneg]
  exact sum_gains_le hids hkeys hgrades n

theorem ideal_pos (hlog : forall i, 0 < weight log2 i) (hkeys : (relevance.map Prod.fst).Nodup)
    (hgrades : forall item, item ∈ relevance -> 0 ≤ item.2)
    (hsome : exists item, item ∈ relevance ∧ 0 < item.2) (hk : 1 ≤ k) :
    0 < dcg log2 relevance k (idealIds relevance) := by
  rcases hsome with ⟨item, hitem, hpos⟩
  have hmem : ((2 : K) ^ item.2 - 1) ∈ (largestGains relevance : List K) :=
    Sorting.mem_sortOn.mpr (List.mem_map_of_mem hitem)
  have hgain : (0 : K) < (2 : K) ^ item.2 - 1 := sub_pos.mpr (one_lt_zpow₀ one_lt_two hpos)
  have hfirst : 0 < (largestGains relevance : List K).getD 0 0 := by
    have hsorted := Sorting.pairwise_sortOn OrderDual.toDual (gains relevance : List K)
    change ((largestGains relevance : List K)).Pairwise _ at hsorted
    cases hlargest : (largestGains relevance : List K) with
    | nil =>
        rw [hlargest] at hmem
        cases hmem
    | cons g rest =>
        rw [hlargest] at hmem hsorted
        rw [List.pairwise_cons] at hsorted
        cases List.mem_cons.mp hmem with
        | inl heq => exact hgain.trans_eq heq
        | inr hrest => exact hgain.trans_le (hsorted.1 _ hrest)
  rw [dcg_eq_sum, map_gain_idealIds hkeys]
  refine (mul_pos (hlog 0) hfirst).trans_le
    (single_le_sum (f := fun i => weight log2 i * (largestGains relevance : List K).getD i 0) ?_
      (mem_range.mpr hk))
  intro i _
  apply mul_nonneg (hlog i).le
  exact getD_nonneg (fun g hg => gains_nonneg hgrades (Sorting.mem_sortOn.mp hg)) i

/-- The score lies between zero and one, and is one for nothing but an ideal ranking. -/
theorem ndcg_between (hlog : forall m, Discount (weight log2) m) (hids : rankedIds.Nodup)
    (hkeys : (relevance.map Prod.fst).Nodup)
    (hgrades : forall item, item ∈ relevance -> 0 ≤ item.2) (hk : 1 ≤ k) :
    0 ≤ ndcgAtK log2 rankedIds relevance k ∧ ndcgAtK log2 rankedIds relevance k ≤ 1 ∧
      ((exists item, item ∈ relevance ∧ 0 < item.2) ->
        (ndcgAtK log2 rankedIds relevance k = 1 ↔
          forall i, i < k -> (rankedIds.map (gain relevance)).getD i (0 : K) =
            (largestGains relevance).getD i 0)) := by
  obtain ⟨m, rfl⟩ : exists m, k = m + 1 := ⟨k - 1, by omega⟩
  have hpos : forall i, 0 < weight log2 i := fun i => (hlog i).pos
  have hactual := dcg_nonneg (k := m + 1) hpos hkeys hgrades rankedIds
  have hideal := dcg_nonneg (k := m + 1) hpos hkeys hgrades (idealIds relevance)
  have hsub : dcg log2 relevance (m + 1) (idealIds relevance) - dcg log2 relevance (m + 1) rankedIds =
      ∑ i ∈ range (m + 1), weight log2 i *
        ((largestGains relevance : List K).getD i 0 - (rankedIds.map (gain relevance)).getD i 0) :=
    ideal_sub_actual hkeys
  have hprefix : forall j, j ≤ m + 1 -> _ := fun j _ =>
    differences_nonneg (K := K) hids hkeys hgrades j
  have hle : dcg log2 relevance (m + 1) rankedIds ≤ dcg log2 relevance (m + 1) (idealIds relevance) := by
    rw [← sub_nonneg, hsub]
    exact discounted_nonneg (hlog m) hprefix
  unfold ndcgAtK
  refine ⟨?_, ?_, fun hsome => ?_⟩
  · dsimp only
    split
    · exact div_nonneg hactual hideal
    · exact zero_le_one
  · dsimp only
    split
    · exact div_le_one_of_le₀ hle hideal
    · exact le_rfl
  · have hidealPos := ideal_pos hpos hkeys hgrades hsome hk
    dsimp only
    rw [if_pos hidealPos.ne', div_eq_one_iff_eq hidealPos.ne', eq_comm, ← sub_eq_zero, hsub,
      discounted_eq_zero (hlog m) hprefix]
    exact forall_congr' fun i => imp_congr_right fun _ => sub_eq_zero.trans eq_comm

end Gains

/-!
# The logarithm
-/

/-- `math.log2` of an integer, exactly. -/
noncomputable def realLog2 (n : Nat) : ℝ :=
  Real.logb 2 n

theorem realLog2_pos {n : Nat} (h : 2 ≤ n) : 0 < realLog2 n :=
  Real.logb_pos one_lt_two (by exact_mod_cast h)

theorem realLog2_lt {m n : Nat} (hm : 0 < m) (h : m < n) : realLog2 m < realLog2 n :=
  Real.logb_lt_logb one_lt_two (by exact_mod_cast hm) (by exact_mod_cast h)

theorem discount_realLog2 (m : Nat) : Discounts.Discount (weight realLog2) m where
  pos := one_div_pos.mpr (realLog2_pos (Nat.le_add_left 2 m))
  decreases := fun i _ =>
    one_div_lt_one_div_of_lt (realLog2_pos (Nat.le_add_left 2 i))
      (realLog2_lt (Nat.succ_pos _) (Nat.lt_succ_self _))

theorem ndcg_normalized {rankedIds : List Int} {relevance : Dict Int Int} {k : Nat}
    (hids : rankedIds.Nodup) (hkeys : (relevance.map Prod.fst).Nodup)
    (hgrades : forall item, item ∈ relevance -> 0 ≤ item.2) (hk : 1 ≤ k) :
    0 ≤ ndcgAtK realLog2 rankedIds relevance k ∧ ndcgAtK realLog2 rankedIds relevance k ≤ 1 ∧
      ((exists item, item ∈ relevance ∧ 0 < item.2) ->
        (ndcgAtK realLog2 rankedIds relevance k = 1 ↔
          forall i, i < k -> (rankedIds.map (gain relevance)).getD i (0 : ℝ) =
            (largestGains relevance).getD i 0)) :=
  ndcg_between discount_realLog2 hids hkeys hgrades hk

/-- An id without a grade stands between the graded ones. -/
theorem ndcg_normalized_between : 0 ≤ ndcgAtK realLog2 [2, 9, 1] [(1, 1), (2, 3)] 2 ∧
    ndcgAtK realLog2 [2, 9, 1] [(1, 1), (2, 3)] 2 ≤ 1 ∧
      ((exists item : Int × Int, item ∈ [(1, 1), (2, 3)] ∧ 0 < item.2) ->
        (ndcgAtK realLog2 [2, 9, 1] [(1, 1), (2, 3)] 2 = 1 ↔
          forall i, i < 2 -> (([2, 9, 1] : List Int).map (gain [(1, 1), (2, 3)])).getD i (0 : ℝ) =
            (largestGains [(1, 1), (2, 3)]).getD i 0)) :=
  ndcg_normalized (by decide) (by decide) (by decide) (by decide)

end Metrics
end RagService
