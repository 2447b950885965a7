import Mathlib.Data.List.Forall2

/-!
# Passing over lists

What a pass over a list gives, item by item.
-/

namespace RagService
namespace Traversals

variable {α β : Type}

theorem mapM_of_forall {f : α -> Option β} {P : α -> β -> Prop} {xs : List α}
    (h : forall x, x ∈ xs -> exists y, f x = some y ∧ P x y) :
    exists ys, xs.mapM f = some ys ∧ List.Forall₂ P xs ys := by
  induction xs with
  | nil => exact ⟨[], rfl, .nil⟩
  | cons x rest ih =>
      rcases h x (.head _) with ⟨y, hy, hP⟩
      rcases ih fun x hx => h x (.tail _ hx) with ⟨ys, hys, hrest⟩
      exists y :: ys
      constructor
      · rw [List.mapM_cons, hy, hys]
        rfl
      · exact .cons hP hrest

theorem flatMap_filter_eq (p : α -> Bool) (f : α -> List β) (xs : List α) :
    (xs.filter p).flatMap f = xs.flatMap fun x => if p x then f x else [] := by
  induction xs with
  | nil => rfl
  | cons x rest ih =>
      rw [List.filter_cons, List.flatMap_cons, ← ih]
      split
      · exact List.flatMap_cons
      · rfl

end Traversals
end RagService
