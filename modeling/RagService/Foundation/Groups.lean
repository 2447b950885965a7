import RagService.Foundation.Dicts
import RagService.Foundation.Firsts

/-!
# Groups

Items put into lists by a key, as with `defaultdict(list)`, and the loop that passes over the
items whose key it has seen.  Each list has the values that were put under its key, in their
order, and items that their keys tell apart are kept as often as they are different.
-/

namespace RagService

namespace Dict

variable {Key Value : Type} [DecidableEq Key]

/-- `d[key]` of a `defaultdict(list)`. -/
def getList (d : Dict Key (List Value)) (key : Key) : List Value :=
  (d.get key).getD []

/-- `d[key].append(value)` -/
def push (d : Dict Key (List Value)) (key : Key) (value : Value) : Dict Key (List Value) :=
  d.set key (d.getList key ++ [value])

theorem getList_push (d : Dict Key (List Value)) (k key : Key) (value : Value) :
    (d.push k value).getList key = d.getList key ++ if k = key then [value] else [] := by
  unfold push getList
  rw [get_set]
  split
  · rename_i hkey
    rw [hkey]
    rfl
  · exact (List.append_nil _).symm

theorem getList_pushes (d : Dict Key (List Value)) (pairs : List (Key × Value)) (key : Key) :
    (pairs.foldl (fun d p => d.push p.1 p.2) d).getList key =
      d.getList key ++ (pairs.filter fun p => p.1 = key).map Prod.snd := by
  induction pairs generalizing d with
  | nil => exact (List.append_nil _).symm
  | cons p rest ih =>
      rw [List.foldl_cons, ih, getList_push, List.append_assoc, List.filter_cons]
      congr 1
      by_cases hkey : p.1 = key
      · rw [if_pos hkey, if_pos (decide_eq_true hkey)]
        rfl
      · rw [if_neg hkey, decide_eq_false hkey]
        rfl

theorem get_setDefault (d : Dict Key Value) (k key : Key) (value : Value) :
    (d.setDefault k value).get key = (d.get key).or (if k = key then some value else none) := by
  unfold setDefault
  cases hget : d.get k with
  | some old =>
      dsimp only
      split
      · rename_i hkey
        rw [← hkey, hget]
        rfl
      · exact Option.or_none.symm
  | none =>
      dsimp only
      rw [get_set]
      split
      · rename_i hkey
        rw [← hkey, hget]
        rfl
      · exact Option.or_none.symm

theorem get_setDefaults (d : Dict Key Value) (pairs : List (Key × Value)) (key : Key) :
    (pairs.foldl (fun d p => d.setDefault p.1 p.2) d).get key =
      (d.get key).or ((pairs.find? fun p => p.1 = key).map Prod.snd) := by
  induction pairs generalizing d with
  | nil => exact Option.or_none.symm
  | cons p rest ih =>
      rw [List.foldl_cons, ih, get_setDefault, Option.or_assoc, List.find?_cons]
      congr 1
      by_cases hkey : p.1 = key
      · rw [if_pos hkey, decide_eq_true hkey]
        rfl
      · rw [if_neg hkey, decide_eq_false hkey]
        rfl

variable {α : Type} {key : α -> Key} {value : α -> Value} {items : List α}

theorem get_sets_of_not_mem (d : Dict Key Value) {k : Key} (hk : k ∉ items.map key) :
    (items.foldl (fun d item => d.set (key item) (value item)) d).get k = d.get k := by
  induction items generalizing d with
  | nil => rfl
  | cons item rest ih =>
      rw [List.map_cons, List.mem_cons, not_or] at hk
      rw [List.foldl_cons, ih _ hk.2, get_set, if_neg fun heq => hk.1 heq.symm]

theorem get_sets_of_mem (d : Dict Key Value) (hkeys : (items.map key).Nodup) {item : α}
    (hitem : item ∈ items) :
    (items.foldl (fun d item => d.set (key item) (value item)) d).get (key item) =
      some (value item) := by
  induction items generalizing d with
  | nil => cases hitem
  | cons first rest ih =>
      rw [List.map_cons, List.nodup_cons] at hkeys
      rw [List.foldl_cons]
      cases List.mem_cons.mp hitem with
      | inl heq =>
          subst heq
          rw [get_sets_of_not_mem _ hkeys.1, get_set, if_pos rfl]
      | inr hrest => exact ih _ hkeys.2 hrest

end Dict

namespace Firsts

variable {α κ : Type} [DecidableEq κ]

def unseen (key : α -> κ) : List κ -> List α -> List α
  | _, [] => []
  | seen, item :: rest =>
      if key item ∈ seen then unseen key seen rest
      else item :: unseen key (key item :: seen) rest

theorem unseen_eq (key : α -> κ) (seen : List κ) (items : List α) :
    unseen key seen items = (firsts key items).filter fun item => key item ∉ seen := by
  induction items generalizing seen with
  | nil => rfl
  | cons item rest ih =>
      rw [unseen, firsts, List.filter_cons, List.filter_filter]
      split
      · rename_i hseen
        rw [decide_eq_false (not_not.mpr hseen), ih]
        apply List.filter_congr
        intro later _
        rw [← Bool.decide_and, decide_eq_decide]
        constructor
        · intro hnot
          exact ⟨hnot, fun hkey => hnot (hkey ▸ hseen)⟩
        · exact fun h => h.1
      · rename_i hseen
        rw [decide_eq_true hseen, ih]
        congr 1
        apply List.filter_congr
        intro later _
        rw [← Bool.decide_and, decide_eq_decide, List.mem_cons, not_or, and_comm]

theorem unseen_nil (key : α -> κ) (items : List α) : unseen key [] items = firsts key items := by
  rw [unseen_eq]
  apply List.filter_eq_self.mpr
  intro item _
  exact decide_eq_true List.not_mem_nil

theorem firsts_eq_eraseDups [BEq α] [LawfulBEq α] {key : α -> κ} {items : List α}
    (hkey : forall x y, x ∈ items -> y ∈ items -> key x = key y -> x = y) :
    firsts key items = items.eraseDups := by
  classical
  rw [eraseDups_eq_firsts]
  induction items with
  | nil => rfl
  | cons item rest ih =>
      rw [firsts, firsts, ih fun x y hx hy => hkey x y (.tail _ hx) (.tail _ hy)]
      congr 1
      apply List.filter_congr
      intro later hlater
      have hmem : later ∈ rest := (firsts_sublist id rest).subset hlater
      rw [decide_eq_decide]
      constructor
      · intro hne heq
        exact hne (congrArg key heq)
      · intro hne heq
        exact hne (hkey later item (.tail _ hmem) (.head _) heq)

end Firsts
end RagService
