import Mathlib.Data.List.Nodup
import Mathlib.Data.List.Perm.Subperm

/-!
# Checks that follow references

Every item that is reached from some items is to be good.  The check goes depth first, passes
over items that are not active, and takes a key that it has seen as checked, also while it is
still below an item with this key.  It is right all the same: the items below the keys seen are
all checked before it says so.
-/

namespace RagService
namespace Closures

/-- Items with their keys, and the items that each refers to. -/
structure Net (Item Key : Type) where
  active : Item -> Bool
  good : Item -> Bool
  key : Item -> Key
  next : Item -> List Item

variable {Item Key : Type}

namespace Net

/-- Check items one after the other, until one is not good. -/
def visitAll (visit : List Key -> Item -> Option (Bool × List Key)) :
    List Key -> List Item -> Option (Bool × List Key)
  | seen, [] => some (true, seen)
  | seen, x :: rest =>
      match visit seen x with
      | none => none
      | some (false, seen) => some (false, seen)
      | some (true, seen) => visitAll visit seen rest

/-- Check an item and all below it, with the keys seen so far. -/
def visit [DecidableEq Key] (N : Net Item Key) :
    Nat -> List Key -> Item -> Option (Bool × List Key)
  | 0, _, _ => none
  | fuel + 1, seen, x =>
      if N.active x then
        if N.good x then
          if N.key x ∈ seen then some (true, seen)
          else visitAll (N.visit fuel) (N.key x :: seen) (N.next x)
        else some (false, seen)
      else some (true, seen)

inductive Reached (N : Net Item Key) (start : List Item) : Item -> Prop where
  | start {x : Item} (h : x ∈ start) (hactive : N.active x = true) : Reached N start x
  | next {x y : Item} (h : Reached N start x) (hgood : N.good x = true) (hy : y ∈ N.next x)
      (hactive : N.active y = true) : Reached N start y

/-- Items with the same key refer to the same items. -/
def Keyed (N : Net Item Key) : Prop :=
  forall x y, N.good x = true -> N.good y = true -> N.key x = N.key y -> N.next x = N.next y

end Net

variable {N : Net Item Key} {seen seen' : List Key} {x : Item} {items : List Item} {b : Bool}

/-!
# What is below the keys seen

What has been seen is settled: what active items refer to is good and seen, for the keys seen
in the meantime.
-/

/-- What active items refer to is good and seen, for the keys seen in the meantime. -/
def Settled (N : Net Item Key) (seen seen' : List Key) : Prop :=
  forall x, N.good x = true -> N.key x ∈ seen' -> N.key x ∉ seen ->
    forall y, y ∈ N.next x -> N.active y = true -> N.good y = true ∧ N.key y ∈ seen'

structure Extends (N : Net Item Key) (seen seen' : List Key) : Prop where
  keeps : forall k, k ∈ seen -> k ∈ seen'
  settled : Settled N seen seen'

theorem Extends.refl (N : Net Item Key) (seen : List Key) : Extends N seen seen :=
  ⟨fun _ hk => hk, fun _ _ hin hnot => absurd hin hnot⟩

theorem Extends.trans {seen'' : List Key} (h : Extends N seen seen')
    (h' : Extends N seen' seen'') : Extends N seen seen'' := by
  constructor
  · exact fun k hk => h'.keeps k (h.keeps k hk)
  · intro x hgood hin hnot y hy hactive
    by_cases hmid : N.key x ∈ seen'
    · rcases h.settled x hgood hmid hnot y hy hactive with ⟨hygood, hyseen⟩
      exact ⟨hygood, h'.keeps _ hyseen⟩
    · exact h'.settled x hgood hin hmid y hy hactive

theorem visitAll_true {visit : List Key -> Item -> Option (Bool × List Key)}
    (hvisit : forall x seen seen', visit seen x = some (true, seen') ->
      Extends N seen seen' ∧ (N.active x = true -> N.good x = true ∧ N.key x ∈ seen'))
    (h : Net.visitAll visit seen items = some (true, seen')) :
    Extends N seen seen' ∧
      forall x, x ∈ items -> N.active x = true -> N.good x = true ∧ N.key x ∈ seen' := by
  induction items generalizing seen with
  | nil =>
      cases h
      exact ⟨.refl N _, nofun⟩
  | cons x rest ih =>
      unfold Net.visitAll at h
      split at h
      · cases h
      · cases h
      · rename_i seen₁ hx
        rcases hvisit x seen seen₁ hx with ⟨hfirst, hgood⟩
        rcases ih h with ⟨hrest, hall⟩
        constructor
        · exact hfirst.trans hrest
        · intro y hy hactive
          cases List.mem_cons.mp hy with
          | inl heq =>
              rw [heq] at hactive ⊢
              exact ⟨(hgood hactive).1, hrest.keeps _ (hgood hactive).2⟩
          | inr hin => exact hall y hin hactive

section

variable [DecidableEq Key]

theorem visit_true (hkeyed : N.Keyed) {fuel : Nat} (h : N.visit fuel seen x = some (true, seen')) :
    Extends N seen seen' ∧ (N.active x = true -> N.good x = true ∧ N.key x ∈ seen') := by
  induction fuel generalizing seen seen' x with
  | zero => cases h
  | succ fuel ih =>
      unfold Net.visit at h
      split at h
      · split at h
        · rename_i hactive hgood
          split at h
          · rename_i hin
            cases h
            exact ⟨.refl N seen, fun _ => ⟨hgood, hin⟩⟩
          · rename_i hnew
            rcases visitAll_true (fun x seen seen' h => ih h) h with ⟨hextends, hall⟩
            have hkey : N.key x ∈ seen' := hextends.keeps _ (.head _)
            constructor
            · constructor
              · exact fun k hk => hextends.keeps k (.tail _ hk)
              · intro z hz hin hnot y hy hyactive
                by_cases hsame : N.key z = N.key x
                · -- the key of the item itself: what it refers to has just been checked
                  rw [hkeyed z x hz hgood hsame] at hy
                  exact hall y hy hyactive
                · apply hextends.settled z hz hin _ y hy hyactive
                  intro hmem
                  exact (List.mem_cons.mp hmem).elim hsame hnot
            · exact fun _ => ⟨hgood, hkey⟩
        · cases h
      · rename_i hactive
        cases h
        exact ⟨.refl N seen, fun htrue => absurd htrue hactive⟩

/-!
# Why a check fails
-/

omit [DecidableEq Key] in
theorem visitAll_false {visit : List Key -> Item -> Option (Bool × List Key)} {start : List Item}
    (hvisit : forall x seen seen', x ∈ items -> visit seen x = some (false, seen') ->
      exists y, N.Reached start y ∧ N.good y = false)
    (h : Net.visitAll visit seen items = some (false, seen')) :
    exists y, N.Reached start y ∧ N.good y = false := by
  induction items generalizing seen with
  | nil => cases h
  | cons x rest ih =>
      unfold Net.visitAll at h
      split at h
      · cases h
      · rename_i seen₁ hx
        exact hvisit x seen seen₁ (.head _) hx
      · exact ih (fun x seen seen' hx => hvisit x seen seen' (.tail _ hx)) h

theorem visit_false {fuel : Nat} {start : List Item}
    (hx : N.active x = true -> N.Reached start x) (h : N.visit fuel seen x = some (false, seen')) :
    exists y, N.Reached start y ∧ N.good y = false := by
  induction fuel generalizing seen seen' x with
  | zero => cases h
  | succ fuel ih =>
      unfold Net.visit at h
      split at h
      · rename_i hactive
        split at h
        · rename_i hgood
          split at h
          · cases h
          · apply visitAll_false _ h
            intro y seen seen' hy hvisit
            exact ih (fun hyactive => .next (hx hactive) hgood hy hyactive) hvisit
        · rename_i hgood
          exact ⟨x, hx hactive, Bool.eq_false_iff.mpr hgood⟩
      · cases h

/-!
# A check ends

Each step down sees a new key, so the depth is limited by the number of keys.
-/

structure Within (keys seen : List Key) : Prop where
  nodup : seen.Nodup
  subset : forall k, k ∈ seen -> k ∈ keys

omit [DecidableEq Key] in
theorem Within.length_le {keys : List Key} (h : Within keys seen) : seen.length ≤ keys.length :=
  (List.subperm_of_subset h.nodup h.subset).length_le

omit [DecidableEq Key] in
theorem visitAll_ends {keys : List Key} (D : Item -> Prop) (bound : Nat)
    {visit : List Key -> Item -> Option (Bool × List Key)}
    (hvisit : forall x seen, D x -> Within keys seen -> bound ≤ seen.length ->
      exists b seen', visit seen x = some (b, seen') ∧ Within keys seen' ∧ bound ≤ seen'.length)
    (hitems : forall x, x ∈ items -> D x) (hseen : Within keys seen)
    (hbound : bound ≤ seen.length) :
    exists b seen', Net.visitAll visit seen items = some (b, seen') ∧ Within keys seen' ∧
      bound ≤ seen'.length := by
  induction items generalizing seen with
  | nil => exact ⟨true, seen, rfl, hseen, hbound⟩
  | cons x rest ih =>
      rcases hvisit x seen (hitems x (.head _)) hseen hbound with ⟨b, seen₁, hx, hseen₁, hbound₁⟩
      unfold Net.visitAll
      rw [hx]
      cases b with
      | false => exact ⟨false, seen₁, rfl, hseen₁, hbound₁⟩
      | true => exact ih (fun x hx => hitems x (.tail _ hx)) hseen₁ hbound₁

/-- Each step down sees a new key, so the depth is limited by the number of keys. -/
theorem visit_ends {keys : List Key} {D : Item -> Prop}
    (hkey : forall x, D x -> N.good x = true -> N.key x ∈ keys)
    (hnext : forall x, D x -> forall y, y ∈ N.next x -> D y) {fuel : Nat} {bound : Nat}
    (hfuel : keys.length < fuel + bound) (hx : D x) (hseen : Within keys seen)
    (hbound : bound ≤ seen.length) :
    exists b seen', N.visit fuel seen x = some (b, seen') ∧ Within keys seen' ∧
      bound ≤ seen'.length := by
  induction fuel generalizing seen x bound with
  | zero =>
      have hle := hseen.length_le
      omega
  | succ fuel ih =>
      unfold Net.visit
      split
      · split
        · rename_i hgood
          split
          · exact ⟨true, seen, rfl, hseen, hbound⟩
          · rename_i hnew
            have hseen' : Within keys (N.key x :: seen) := by
              constructor
              · exact List.nodup_cons.mpr ⟨hnew, hseen.nodup⟩
              · intro k hk
                cases List.mem_cons.mp hk with
                | inl heq =>
                    rw [heq]
                    exact hkey x hx hgood
                | inr hin => exact hseen.subset k hin
            have hlength : bound + 1 ≤ (N.key x :: seen).length := Nat.succ_le_succ hbound
            have hbelow := visitAll_ends D (bound + 1)
              (fun y seen hy hseen hbound => ih (by omega) hy hseen hbound)
              (hnext x hx) hseen' hlength
            rcases hbelow with ⟨b, seen'', hall, hwithin, hle⟩
            exact ⟨b, seen'', hall, hwithin, Nat.le_of_succ_le hle⟩
        · exact ⟨false, seen, rfl, hseen, hbound⟩
      · exact ⟨true, seen, rfl, hseen, hbound⟩

/-!
# The whole check

The check starts from nothing seen.  It says whether every item reached is good, and it ends
when it may go one step deeper than there are keys.
-/

def Net.check (N : Net Item Key) (fuel : Nat) (start : List Item) : Option Bool :=
  (Net.visitAll (N.visit fuel) [] start).map Prod.fst

/-- The check says whether every item reached is good. -/
theorem check_eq_some (hkeyed : N.Keyed) {fuel : Nat} {start : List Item}
    (h : N.check fuel start = some b) :
    b = true ↔ forall x, N.Reached start x -> N.good x = true := by
  rcases Option.map_eq_some_iff.mp h with ⟨⟨b', seen⟩, hall, heq⟩
  have hb : b' = b := heq
  rw [hb] at hall
  cases hb' : b with
  | true =>
      rw [hb'] at hall
      rcases visitAll_true (fun x seen seen' h => visit_true hkeyed h) hall with ⟨hextends, hstart⟩
      have hreached : forall x, N.Reached start x -> N.good x = true ∧ N.key x ∈ seen := by
        intro x hx
        induction hx with
        | start hin hactive => exact hstart _ hin hactive
        | next _ hgood hy hactive ih =>
            exact hextends.settled _ hgood ih.2 List.not_mem_nil _ hy hactive
      exact ⟨fun _ x hx => (hreached x hx).1, fun _ => rfl⟩
  | false =>
      rw [hb'] at hall
      have hbad : exists y, N.Reached start y ∧ N.good y = false :=
        visitAll_false
          (fun x seen seen' hx hvisit => visit_false (fun hactive => .start hx hactive) hvisit) hall
      rcases hbad with ⟨y, hy, hgood⟩
      constructor
      · nofun
      · intro hgoods
        rw [hgoods y hy] at hgood
        cases hgood

theorem check_ends {keys : List Key} {D : Item -> Prop}
    (hkey : forall x, D x -> N.good x = true -> N.key x ∈ keys)
    (hnext : forall x, D x -> forall y, y ∈ N.next x -> D y) {start : List Item}
    (hstart : forall x, x ∈ start -> D x) {fuel : Nat} (hfuel : keys.length < fuel) :
    exists b, N.check fuel start = some b := by
  have hall := visitAll_ends D 0
    (fun x seen hx hseen hbound => visit_ends hkey hnext hfuel hx hseen hbound) hstart
    ⟨List.nodup_nil, nofun⟩ (Nat.zero_le _)
  rcases hall with ⟨b, seen, hall, _⟩
  exists b
  unfold Net.check
  rw [hall]
  rfl

end

end Closures
end RagService
