import Mathlib.Data.List.Nodup

/-!
# First items by a key

The items of a list whose key no earlier item has, and the loop that collects them: it keeps
the keys that it has seen, and stops when it has enough items.  From the beginning it collects
the first items up to the limit.
-/

namespace RagService
namespace Firsts

variable {α κ : Type} [DecidableEq κ]

def firsts (key : α -> κ) : List α -> List α
  | [] => []
  | item :: rest => item :: (firsts key rest).filter fun later => key later ≠ key item

/-- The loop: the items kept and the keys seen so far, and the items left. -/
def collect (key : α -> κ) (limit : Nat) : List α -> List κ -> List α -> List α
  | kept, _, [] => kept
  | kept, seen, item :: rest =>
      if key item ∈ seen then collect key limit kept seen rest
      else if kept.length + 1 = limit then kept ++ [item]
      else collect key limit (kept ++ [item]) (seen ++ [key item]) rest

theorem firsts_sublist (key : α -> κ) (items : List α) : (firsts key items).Sublist items := by
  induction items with
  | nil => exact List.Sublist.refl []
  | cons item rest ih => exact (List.filter_sublist.trans ih).cons_cons item

theorem nodup_keys_firsts (key : α -> κ) (items : List α) :
    ((firsts key items).map key).Nodup := by
  induction items with
  | nil => exact List.nodup_nil
  | cons item rest ih =>
      rw [firsts, List.map_cons, List.nodup_cons]
      constructor
      · intro hmem
        rcases List.mem_map.mp hmem with ⟨later, hlater, hkey⟩
        exact of_decide_eq_true (List.mem_filter.mp hlater).2 hkey
      · exact ih.sublist (List.filter_sublist.map key)

theorem mem_keys_firsts {key : α -> κ} {items : List α} {k : κ} :
    k ∈ (firsts key items).map key ↔ k ∈ items.map key := by
  constructor
  · intro h
    exact ((firsts_sublist key items).map key).subset h
  · intro h
    induction items with
    | nil => exact h
    | cons item rest ih =>
        rw [firsts, List.map_cons, List.mem_cons]
        by_cases hkey : k = key item
        · exact .inl hkey
        · have hrest := (List.mem_cons.mp h).resolve_left hkey
          rcases List.mem_map.mp (ih hrest) with ⟨later, hlater, rfl⟩
          right
          exact List.mem_map_of_mem (List.mem_filter.mpr ⟨hlater, decide_eq_true hkey⟩)

theorem firsts_filter (key : α -> κ) (p : κ -> Bool) (items : List α) :
    firsts key (items.filter fun item => p (key item)) =
      (firsts key items).filter fun item => p (key item) := by
  induction items with
  | nil => rfl
  | cons item rest ih =>
      rw [List.filter_cons, firsts, List.filter_cons]
      cases hp : p (key item) with
      | true =>
          rw [if_pos rfl, if_pos rfl, firsts, ih, List.filter_comm]
      | false =>
          have hsame : ((firsts key rest).filter fun later => key later ≠ key item).filter
              (fun later => p (key later)) = (firsts key rest).filter fun later => p (key later) := by
            rw [List.filter_filter]
            apply List.filter_congr
            intro later _
            cases hlater : p (key later) with
            | false => rfl
            | true =>
                rw [Bool.true_and, decide_eq_true_eq]
                intro hkey
                rw [hkey, hp] at hlater
                cases hlater
          rw [if_neg Bool.false_ne_true, if_neg Bool.false_ne_true, hsame]
          exact ih

theorem eraseDups_eq_firsts [BEq κ] [LawfulBEq κ] (keys : List κ) :
    keys.eraseDups = firsts id keys := by
  induction hlength : keys.length using Nat.strongRecOn generalizing keys with
  | ind n ih =>
      cases keys with
      | nil => rfl
      | cons first rest =>
          have hfilter : (rest.filter fun k => !(k == first)) = rest.filter fun k => k ≠ first := by
            apply List.filter_congr
            intro k _
            by_cases hk : k = first
            · rw [hk, beq_self_eq_true, decide_eq_false (not_not.mpr rfl)]
              rfl
            · rw [beq_false_of_ne hk, decide_eq_true hk]
              rfl
          have hshorter : (rest.filter fun k => k ≠ first).length < n := by
            rw [← hlength]
            exact Nat.lt_succ_of_le (List.length_filter_le _ rest)
          rw [List.eraseDups_cons, hfilter, ih _ hshorter _ rfl]
          exact congrArg (first :: ·) (firsts_filter id (fun k => decide (k ≠ first)) rest)

/-- What the loop collects. -/
theorem collect_eq (key : α -> κ) {limit : Nat} {kept : List α} (seen : List κ) (items : List α)
    (hkept : kept.length < limit) :
    collect key limit kept seen items =
      (kept ++ (firsts key items).filter fun item => key item ∉ seen).take limit := by
  induction items generalizing kept seen with
  | nil =>
      rw [collect, firsts, List.filter_nil, List.append_nil,
        List.take_of_length_le (Nat.le_of_lt hkept)]
  | cons item rest ih =>
      rw [collect, firsts]
      by_cases hseen : key item ∈ seen
      · -- the later items with this key are not kept either
        have hsame : ((firsts key rest).filter fun later => key later ≠ key item).filter
            (fun later => key later ∉ seen) =
              (firsts key rest).filter fun later => key later ∉ seen := by
          rw [List.filter_filter]
          apply List.filter_congr
          intro later _
          rw [← Bool.decide_and, decide_eq_decide]
          constructor
          · exact fun h => h.1
          · intro hnot
            constructor
            · exact hnot
            · intro hkey
              rw [hkey] at hnot
              exact hnot hseen
        rw [if_pos hseen, ih seen hkept, List.filter_cons, if_neg, hsame]
        rw [decide_eq_true_eq, not_not]
        exact hseen
      · have hnew : decide (key item ∉ seen) = true := decide_eq_true hseen
        rw [if_neg hseen, List.filter_cons, if_pos hnew]
        split
        · rename_i hlimit
          have hlength : (kept ++ [item]).length = limit := by
            rw [List.length_append]
            exact hlimit
          conv_rhs => rw [List.append_cons, ← hlength, List.take_left]
        · rename_i hlimit
          have hlength : (kept ++ [item]).length < limit := by
            rw [List.length_append]
            exact Nat.lt_of_le_of_ne hkept hlimit
          have hsame : ((firsts key rest).filter fun later => key later ≠ key item).filter
              (fun later => key later ∉ seen) =
                (firsts key rest).filter fun later => key later ∉ seen ++ [key item] := by
            rw [List.filter_filter]
            apply List.filter_congr
            intro later _
            rw [← Bool.decide_and, decide_eq_decide, List.mem_append, List.mem_singleton, not_or]
          rw [ih _ hlength, hsame, List.append_assoc, List.singleton_append]

theorem collect_nil (key : α -> κ) {limit : Nat} (items : List α) (hlimit : 0 < limit) :
    collect key limit [] [] items = (firsts key items).take limit := by
  rw [collect_eq key [] items hlimit, List.nil_append]
  congr 1
  apply List.filter_eq_self.mpr
  intro item _
  exact decide_eq_true List.not_mem_nil

end Firsts
end RagService
