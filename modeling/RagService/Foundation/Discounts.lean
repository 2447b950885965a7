import Mathlib.Algebra.BigOperators.Field
import Mathlib.Algebra.BigOperators.Module
import Mathlib.Algebra.Order.BigOperators.Ring.Finset
import RagService.Foundation.Sorting

/-!
# Discounted sums

Sums of values by position in which earlier positions weigh more.  Summation by parts
compares two arrangements by their prefix sums, and the largest values of a collection have
the largest prefix sums.
-/

namespace RagService
namespace Discounts

open Finset

variable {K : Type} [Field K]

/-!
# Comparing prefix sums
-/

theorem sum_discounted (w d : Nat -> K) (m : Nat) :
    ∑ i ∈ range (m + 1), w i * d i =
      w m * ∑ i ∈ range (m + 1), d i +
        ∑ j ∈ range m, (w j - w (j + 1)) * ∑ i ∈ range (j + 1), d i := by
  have hparts := sum_range_by_parts w d (m + 1)
  simp only [smul_eq_mul, Nat.add_sub_cancel] at hparts
  rw [hparts, sub_eq_add_neg, ← sum_neg_distrib]
  congr 1
  apply sum_congr rfl
  intro j _
  rw [← neg_mul, neg_sub]

variable [LinearOrder K]

/-- Weights that are positive and strictly decrease up to a position. -/
structure Discount (w : Nat -> K) (m : Nat) : Prop where
  pos : 0 < w m
  decreases : forall i, i < m -> w (i + 1) < w i

variable [IsStrictOrderedRing K] {w d : Nat -> K} {m : Nat}

theorem discounted_nonneg (hw : Discount w m)
    (hd : forall j, j ≤ m + 1 -> 0 ≤ ∑ i ∈ range j, d i) :
    0 ≤ ∑ i ∈ range (m + 1), w i * d i := by
  rw [sum_discounted]
  apply add_nonneg
  · exact mul_nonneg hw.pos.le (hd _ le_rfl)
  · apply sum_nonneg
    intro j hj
    rw [mem_range] at hj
    exact mul_nonneg (sub_pos.mpr (hw.decreases j hj)).le (hd _ (by omega))

theorem discounted_eq_zero (hw : Discount w m)
    (hd : forall j, j ≤ m + 1 -> 0 ≤ ∑ i ∈ range j, d i) :
    ∑ i ∈ range (m + 1), w i * d i = 0 ↔ forall i, i < m + 1 -> d i = 0 := by
  constructor
  · intro hzero
    rw [sum_discounted] at hzero
    have hterms : forall j, j ∈ range m ->
        0 ≤ (w j - w (j + 1)) * ∑ i ∈ range (j + 1), d i := by
      intro j hj
      rw [mem_range] at hj
      exact mul_nonneg (sub_pos.mpr (hw.decreases j hj)).le (hd _ (by omega))
    have hlast : 0 ≤ w m * ∑ i ∈ range (m + 1), d i := mul_nonneg hw.pos.le (hd _ le_rfl)
    rcases (add_eq_zero_iff_of_nonneg hlast (sum_nonneg hterms)).mp hzero with ⟨hw₀, hsum⟩
    have hsums : forall j, j ≤ m + 1 -> ∑ i ∈ range j, d i = 0 := by
      intro j hj
      cases j with
      | zero => rfl
      | succ j =>
          rcases Nat.lt_or_ge j m with hlt | hge
          · have hterm := (sum_eq_zero_iff_of_nonneg hterms).mp hsum j (mem_range.mpr hlt)
            exact (mul_eq_zero.mp hterm).resolve_left (sub_pos.mpr (hw.decreases j hlt)).ne'
          · have hjm : j = m := by omega
            rw [hjm]
            exact (mul_eq_zero.mp hw₀).resolve_left hw.pos.ne'
    intro i hi
    have hstep := sum_range_succ d i
    rw [hsums (i + 1) (by omega), hsums i (by omega), zero_add] at hstep
    exact hstep.symm
  · intro hzero
    apply sum_eq_zero
    intro i hi
    rw [hzero i (mem_range.mp hi), mul_zero]

/-!
# Lists of values

A list as the values of its positions; a position beyond the end has the value zero.  Values
that do not increase have no smaller sum at the front than any of them together.
-/

omit [LinearOrder K] [IsStrictOrderedRing K] in
theorem sum_take (values : List K) (n : Nat) :
    (values.take n).sum = ∑ i ∈ range n, values.getD i 0 := by
  induction n generalizing values with
  | zero => simp
  | succ n ih =>
      cases values with
      | nil => simp
      | cons v rest =>
          rw [List.take_succ_cons, List.sum_cons, sum_range_succ', ih rest, add_comm]
          rfl

omit [LinearOrder K] [IsStrictOrderedRing K] in
theorem sum_zipIdx {α : Type} (f : α -> K) (w : Nat -> K) (xs : List α) (n start : Nat) :
    (((xs.take n).zipIdx start).map fun p => w p.2 * f p.1).sum =
      ∑ i ∈ range n, w (start + i) * (xs.map f).getD i 0 := by
  induction n generalizing xs start with
  | zero => simp
  | succ n ih =>
      cases xs with
      | nil => simp
      | cons x rest =>
          rw [List.take_succ_cons, List.zipIdx_cons, List.map_cons, List.sum_cons, ih rest,
            sum_range_succ', add_comm]
          congr 1
          apply sum_congr rfl
          intro i _
          rw [List.map_cons, List.getD_cons_succ, Nat.add_right_comm, Nat.add_assoc]

theorem sum_le_sum_take {sorted : List K} (hsorted : sorted.Pairwise fun x y => y ≤ x)
    (hnonneg : forall x, x ∈ sorted -> 0 ≤ x) {chosen : List K} (hchosen : chosen.Sublist sorted)
    {n : Nat} (hn : chosen.length ≤ n) : chosen.sum ≤ (sorted.take n).sum := by
  induction sorted generalizing chosen n with
  | nil =>
      rw [List.sublist_nil.mp hchosen]
      simp
  | cons v rest ih =>
      rw [List.pairwise_cons] at hsorted
      have hrest := fun x hx => hnonneg x (List.mem_cons_of_mem v hx)
      have hv := hnonneg v List.mem_cons_self
      cases n with
      | zero =>
          rw [List.eq_nil_of_length_eq_zero (Nat.le_zero.mp hn)]
          simp
      | succ n =>
          rw [List.take_succ_cons, List.sum_cons]
          cases hchosen with
          | cons _ hchosen =>
              cases chosen with
              | nil =>
                  rw [List.sum_nil]
                  exact add_nonneg hv (List.sum_nonneg fun x hx => hrest x (List.mem_of_mem_take hx))
              | cons c chosen =>
                  have hc : c ≤ v := hsorted.1 c (hchosen.subset List.mem_cons_self)
                  have htail : chosen.Sublist rest := (List.sublist_cons_self c chosen).trans hchosen
                  rw [List.sum_cons]
                  exact add_le_add hc (ih hsorted.2 hrest htail (Nat.le_of_succ_le_succ hn))
          | cons_cons _ hchosen =>
              rw [List.sum_cons]
              exact add_le_add le_rfl (ih hsorted.2 hrest hchosen (Nat.le_of_succ_le_succ hn))

/-- The same for values in any order, compared with all of them sorted. -/
theorem sum_le_largest {values chosen : List K} (hnonneg : forall x, x ∈ values -> 0 ≤ x)
    (hchosen : chosen.Subperm values) {n : Nat} (hn : chosen.length ≤ n) :
    chosen.sum ≤ ((Sorting.sortOn OrderDual.toDual values).take n).sum := by
  have hsorted := Sorting.pairwise_sortOn OrderDual.toDual values
  have hperm := Sorting.perm_sortOn OrderDual.toDual values
  rcases hchosen.trans hperm.symm.subperm with ⟨arranged, harranged, hsublist⟩
  rw [← harranged.sum_eq]
  apply sum_le_sum_take hsorted _ hsublist
  · rw [harranged.length_eq]
    exact hn
  · intro x hx
    exact hnonneg x (Sorting.mem_sortOn.mp hx)

end Discounts
end RagService
