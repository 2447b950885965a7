import Mathlib.Data.List.Forall2

/-!
# Three-valued truth

The truth of a condition of SQL.  A comparison with `NULL` is unknown, and a row is selected
where the condition is true.
-/

namespace RagService

/-- True, false, or `none` where it is unknown. -/
abbrev Truth := Option Bool

namespace Truth

def not (t : Truth) : Truth :=
  t.map Bool.not

def all (ts : List Truth) : Truth :=
  if some false ∈ ts then some false
  else if none ∈ ts then none
  else some true

def any (ts : List Truth) : Truth :=
  if some true ∈ ts then some true
  else if none ∈ ts then none
  else some false

variable {t : Truth} {ts : List Truth}

theorem eq_true_of_ne (hfalse : t ≠ some false) (hnone : t ≠ none) : t = some true := by
  cases t with
  | none => exact absurd rfl hnone
  | some b =>
      cases b with
      | true => rfl
      | false => exact absurd rfl hfalse

theorem all_eq_true : all ts = some true ↔ forall t, t ∈ ts -> t = some true := by
  unfold all
  constructor
  · intro h t ht
    split at h
    · cases h
    · rename_i hfalse
      split at h
      · cases h
      · rename_i hnone
        refine eq_true_of_ne ?_ ?_
        · intro heq
          subst heq
          exact hfalse ht
        · intro heq
          subst heq
          exact hnone ht
  · intro h
    rw [if_neg fun hmem => absurd (h _ hmem) (by decide),
      if_neg fun hmem => absurd (h _ hmem) (by decide)]

theorem any_eq_true : any ts = some true ↔ some true ∈ ts := by
  unfold any
  constructor
  · intro h
    split at h
    · assumption
    · split at h
      · cases h
      · cases h
  · exact fun h => if_pos h

theorem any_eq_false : any ts = some false ↔ forall t, t ∈ ts -> t = some false := by
  unfold any
  constructor
  · intro h t ht
    split at h
    · cases h
    · rename_i htrue
      split at h
      · cases h
      · rename_i hnone
        cases t with
        | none => exact absurd ht hnone
        | some b =>
            cases b with
            | true => exact absurd ht htrue
            | false => rfl
  · intro h
    rw [if_neg fun hmem => absurd (h _ hmem) (by decide),
      if_neg fun hmem => absurd (h _ hmem) (by decide)]

theorem not_eq_true : t.not = some true ↔ t = some false := by
  cases t with
  | none => decide
  | some b => cases b <;> decide

end Truth

/-!
# Conditions

A condition on rows of type `R`, which may fail instead of having a truth value.  Where it has
a meaning it never fails and selects the rows of one set.
-/

abbrev Condition (R E : Type) := R -> Except E Truth

namespace Condition

variable {R E : Type}

def const (b : Bool) : Condition R E :=
  fun _ => .ok (some b)

/-- `and_(*conditions)`; it fails where one of them does. -/
def conj (conditions : List (Condition R E)) : Condition R E := fun row => do
  let ts ← conditions.mapM fun c => c row
  return Truth.all ts

def disj (conditions : List (Condition R E)) : Condition R E := fun row => do
  let ts ← conditions.mapM fun c => c row
  return Truth.any ts

/-- The condition never fails, and selects the rows of a set. -/
def Means (c : Condition R E) (p : R -> Prop) : Prop :=
  forall row, exists t, c row = .ok t ∧ (t = some true ↔ p row)

variable {c : Condition R E} {p q : R -> Prop} {conditions : List (Condition R E)}
variable {ps : List (R -> Prop)}

theorem means_const (b : Bool) : Means (const b : Condition R E) fun _ => b = true := by
  intro row
  refine ⟨some b, rfl, ?_⟩
  rw [Option.some.injEq]

theorem Means.congr (h : Means c p) (hpq : forall row, p row ↔ q row) : Means c q := by
  intro row
  rcases h row with ⟨t, ht, htrue⟩
  exact ⟨t, ht, htrue.trans (hpq row)⟩

theorem Means.unique (hp : Means c p) (hq : Means c q) (row : R) : p row ↔ q row := by
  rcases hp row with ⟨t, ht, htrue⟩
  rcases hq row with ⟨t', ht', htrue'⟩
  rw [ht] at ht'
  cases ht'
  exact htrue.symm.trans htrue'

theorem truths (h : List.Forall₂ Means conditions ps) (row : R) :
    exists ts, conditions.mapM (fun c => c row) = .ok ts ∧
      List.Forall₂ (fun t (p : R -> Prop) => t = some true ↔ p row) ts ps := by
  induction h with
  | nil => exact ⟨[], rfl, .nil⟩
  | cons hc _ ih =>
      rcases hc row with ⟨t, ht, htrue⟩
      rcases ih with ⟨ts, hts, htruths⟩
      refine ⟨t :: ts, ?_, .cons htrue htruths⟩
      rw [List.mapM_cons, ht, hts]
      rfl

theorem means_conj (h : List.Forall₂ Means conditions ps) :
    Means (conj conditions) fun row => forall p, p ∈ ps -> p row := by
  intro row
  rcases truths h row with ⟨ts, hts, htruths⟩
  refine ⟨Truth.all ts, ?_, ?_⟩
  · unfold conj
    rw [hts]
    rfl
  · show Truth.all ts = some true ↔ forall p, p ∈ ps -> p row
    rw [Truth.all_eq_true]
    clear hts h
    induction htruths with
    | nil => simp
    | cons htrue _ ih => rw [List.forall_mem_cons, List.forall_mem_cons, htrue, ih]

theorem means_disj (h : List.Forall₂ Means conditions ps) :
    Means (disj conditions) fun row => exists p, p ∈ ps ∧ p row := by
  intro row
  rcases truths h row with ⟨ts, hts, htruths⟩
  refine ⟨Truth.any ts, ?_, ?_⟩
  · unfold disj
    rw [hts]
    rfl
  · show Truth.any ts = some true ↔ exists p, p ∈ ps ∧ p row
    rw [Truth.any_eq_true]
    clear hts h
    induction htruths with
    | nil => simp
    | cons htrue _ ih => rw [List.mem_cons, eq_comm, htrue, ih, List.exists_mem_cons_iff]

end Condition
end RagService
