import Mathlib.Data.List.Sort

/-!
# Stable sorting by a key

What `sorted(items, key=...)` does: an arrangement of the items in which the keys do not
decrease, and in which items stay in their order unless the keys say otherwise.  An item before
which few others come is among the first when sorted.
-/

namespace RagService
namespace Sorting

variable {α κ : Type} [LinearOrder κ]

def sortOn (key : α -> κ) (items : List α) : List α :=
  items.insertionSort fun x y => key x ≤ key y

theorem perm_sortOn (key : α -> κ) (items : List α) : (sortOn key items).Perm items :=
  List.perm_insertionSort _ _

theorem mem_sortOn {key : α -> κ} {items : List α} {x : α} :
    x ∈ sortOn key items ↔ x ∈ items :=
  (perm_sortOn key items).mem_iff

theorem pairwise_sortOn (key : α -> κ) (items : List α) :
    (sortOn key items).Pairwise fun x y => key x ≤ key y := by
  have htotal : Std.Total fun x y => key x ≤ key y := ⟨fun x y => le_total (key x) (key y)⟩
  have htrans : IsTrans α fun x y => key x ≤ key y := ⟨fun _ _ _ => le_trans⟩
  exact List.pairwise_insertionSort _ items

theorem sublist_sortOn {key : α -> κ} {items part : List α}
    (hkeys : part.Pairwise fun x y => key x ≤ key y) (hpart : part.Sublist items) :
    part.Sublist (sortOn key items) :=
  List.sublist_insertionSort hkeys hpart

theorem sortOn_eq_self {key : α -> κ} {items : List α}
    (h : items.Pairwise fun x y => key x ≤ key y) : sortOn key items = items :=
  List.Pairwise.insertionSort_eq h

theorem sortOn_eq_self_of_const {key : α -> κ} {items : List α} {k : κ}
    (h : forall x, x ∈ items -> key x = k) : sortOn key items = items := by
  apply sortOn_eq_self
  apply List.pairwise_of_forall_mem_list
  intro x hx y hy
  rw [h x hx, h y hy]

theorem map_sortOn_eq {key : α -> κ} {items : List α} {keys : List κ}
    (hperm : (items.map key).Perm keys) (hsorted : keys.Pairwise (· ≤ ·)) :
    (sortOn key items).map key = keys := by
  have hpairwise : ((sortOn key items).map key).Pairwise (· ≤ ·) := by
    rw [List.pairwise_map]
    exact pairwise_sortOn key items
  have hsame : ((sortOn key items).map key).Perm keys :=
    ((perm_sortOn key items).map key).trans hperm
  exact hsame.eq_of_pairwise (fun _ _ _ _ => le_antisymm) hpairwise hsorted

theorem insertionSort_eq_sortOn {key : α -> κ} {r : α -> α -> Prop} [DecidableRel r]
    {items : List α} (h : forall x, x ∈ items -> forall y, y ∈ items -> (r x y ↔ key x ≤ key y)) :
    items.insertionSort r = sortOn key items := by
  have hmap := List.map_insertionSort r (fun x y => key x ≤ key y) id items h
  rw [List.map_id, List.map_id] at hmap
  exact hmap

/-- An item before which few others come is among the first when sorted. -/
theorem mem_take_insertionSort {r : α -> α -> Prop} [DecidableRel r] [Std.Total r] [IsTrans α r]
    {items : List α} {x : α} {n : Nat} (hx : x ∈ items)
    (hfew : (items.countP fun y => r y x) ≤ n) : x ∈ (items.insertionSort r).take n := by
  rcases List.append_of_mem ((List.mem_insertionSort r).mpr hx) with ⟨before, after, hsplit⟩
  have hsorted := List.pairwise_insertionSort r items
  rw [hsplit, List.pairwise_append] at hsorted
  have hself : r x x := by
    cases Std.Total.total (r := r) x x with
    | inl h => exact h
    | inr h => exact h
  have hall : (before ++ [x]).countP (fun y => r y x) = (before ++ [x]).length := by
    rw [List.countP_eq_length]
    intro y hy
    rw [decide_eq_true_eq]
    rcases List.mem_append.mp hy with hbefore | hlast
    · exact hsorted.2.2 y hbefore x List.mem_cons_self
    · rw [List.mem_singleton.mp hlast]
      exact hself
  have hshape : before ++ x :: after = (before ++ [x]) ++ after := List.append_cons before x after
  have hcount : (before ++ [x]).length ≤ n := by
    rw [← hall]
    refine Nat.le_trans ?_ hfew
    rw [← (List.perm_insertionSort r items).countP_eq, hsplit, hshape]
    exact (List.prefix_append _ after).sublist.countP_le
  rw [hsplit, hshape]
  refine List.mem_of_mem_take (i := (before ++ [x]).length) ?_
  rw [List.take_take, Nat.min_eq_left hcount, List.take_left']
  · exact List.mem_append_right _ List.mem_cons_self
  · rfl

/-!
# Pairs of items

Of two items the one with the smaller first index stands before the other, and sorting does not
swap items with the same key.
-/

theorem pair_sublist_total {x y : α} {items : List α} (hx : x ∈ items) (hy : y ∈ items)
    (hne : x ≠ y) : [x, y].Sublist items ∨ [y, x].Sublist items := by
  induction items with
  | nil => cases hx
  | cons item rest ih =>
      cases List.mem_cons.mp hx with
      | inl heq =>
          have hrest := (List.mem_cons.mp hy).resolve_left fun h => hne (heq.trans h.symm)
          rw [heq]
          exact .inl ((List.singleton_sublist.mpr hrest).cons_cons item)
      | inr hx =>
          cases List.mem_cons.mp hy with
          | inl heq =>
              rw [heq]
              exact .inr ((List.singleton_sublist.mpr hx).cons_cons item)
          | inr hy =>
              cases ih hx hy with
              | inl hpair => exact .inl (hpair.cons item)
              | inr hpair => exact .inr (hpair.cons item)

theorem not_pair_sublist_swap {x y : α} {items : List α} (hnodup : items.Nodup)
    (h : [x, y].Sublist items) : ¬ [y, x].Sublist items := by
  induction items with
  | nil => cases h
  | cons item rest ih =>
      rw [List.nodup_cons] at hnodup
      intro hswap
      cases h with
      | cons _ h =>
          cases hswap with
          | cons _ hswap => exact ih hnodup.2 h hswap
          | cons_cons _ _ => exact hnodup.1 (h.subset (List.mem_cons_of_mem _ List.mem_cons_self))
      | cons_cons _ h =>
          cases hswap with
          | cons _ hswap =>
              exact hnodup.1 (hswap.subset (List.mem_cons_of_mem _ List.mem_cons_self))
          | cons_cons _ _ => exact hnodup.1 (List.singleton_sublist.mp h)

theorem exists_pair_of_map {β : Type} {f : α -> β} {items : List α} {a b : β}
    (h : [a, b].Sublist (items.map f)) : exists x y, [x, y].Sublist items ∧ f x = a ∧ f y = b := by
  rcases List.sublist_map_iff.mp h with ⟨pair, hpair, hmap⟩
  rcases List.map_eq_cons_iff.mp hmap.symm with ⟨x, tail, rfl, hx, htail⟩
  rcases List.map_eq_cons_iff.mp htail with ⟨y, last, rfl, hy, hlast⟩
  rw [List.map_eq_nil_iff.mp hlast] at hpair
  exact ⟨x, y, hpair, hx, hy⟩

theorem pair_sublist_of_idxOf_lt [DecidableEq α] {items : List α} {x y : α} (hx : x ∈ items)
    (hy : y ∈ items) (hlt : items.idxOf x < items.idxOf y) : [x, y].Sublist items := by
  induction items with
  | nil => cases hx
  | cons item rest ih =>
      rcases eq_or_ne item y with rfl | hother
      · rw [List.idxOf_cons_self] at hlt
        exact absurd hlt (Nat.not_lt_zero _)
      · have hyrest := (List.mem_cons.mp hy).resolve_left hother.symm
        rcases eq_or_ne item x with rfl | hfirst
        · exact (List.singleton_sublist.mpr hyrest).cons_cons item
        · have hxrest := (List.mem_cons.mp hx).resolve_left hfirst.symm
          rw [List.idxOf_cons_ne _ hfirst, List.idxOf_cons_ne _ hother] at hlt
          exact (ih hxrest hyrest (Nat.lt_of_succ_lt_succ hlt)).cons item

theorem mem_of_pair_sublist {x y : α} {before after : List α}
    (hnodup : (before ++ y :: after).Nodup) (h : [x, y].Sublist (before ++ y :: after)) :
    x ∈ before := by
  induction before with
  | nil =>
      rw [List.nil_append, List.nodup_cons] at hnodup
      cases h with
      | cons _ h => exact absurd (h.subset (List.mem_cons_of_mem _ List.mem_cons_self)) hnodup.1
      | cons_cons _ h => exact absurd (List.singleton_sublist.mp h) hnodup.1
  | cons first rest ih =>
      rw [List.cons_append, List.nodup_cons] at hnodup
      cases h with
      | cons _ h => exact List.mem_cons_of_mem _ (ih hnodup.2 h)
      | cons_cons _ h => exact List.mem_cons_self

theorem pair_sublist_of_sortOn {key : α -> κ} {items : List α} (hnodup : items.Nodup) {x y : α}
    (hkeys : key x = key y) (h : [x, y].Sublist (sortOn key items)) : [x, y].Sublist items := by
  have hsorted : (sortOn key items).Nodup := (perm_sortOn key items).nodup_iff.mpr hnodup
  have hx : x ∈ items := mem_sortOn.mp (h.subset List.mem_cons_self)
  have hy : y ∈ items := mem_sortOn.mp (h.subset (List.mem_cons_of_mem _ List.mem_cons_self))
  have hne : x ≠ y := by
    intro heq
    have hpair := hsorted.sublist h
    rw [heq, List.nodup_cons] at hpair
    exact hpair.1 List.mem_cons_self
  apply (pair_sublist_total hx hy hne).resolve_right
  intro hswap
  have hswapped : [y, x].Sublist (sortOn key items) := by
    apply sublist_sortOn _ hswap
    rw [List.pairwise_pair, hkeys]
  exact not_pair_sublist_swap hsorted h hswapped

end Sorting
end RagService
