import Mathlib.Data.List.Basic

/-!
# Tables

Tables whose rows are deleted logically, and link tables between them: what updates,
deletions, insertions and new links leave as it was.
-/

namespace RagService

/-- A row: its id, what marks it as deleted, and its other columns. -/
structure Row (α : Type) where
  id : Nat
  deleted : Nat
  value : α
  deriving DecidableEq

abbrev Table (α : Type) := List (Row α)

/-- A table of pairs of ids. -/
abbrev Links := List (Nat × Nat)

namespace Table

variable {α : Type}

def ids (t : Table α) : List Nat := t.map Row.id

def get (t : Table α) (id : Nat) : Option (Row α) :=
  t.find? fun row => row.deleted = 0 && row.id = id

def getBy (t : Table α) (p : α -> Bool) : Option (Row α) :=
  t.find? fun row => row.deleted = 0 && p row.value

def getAllByIds (t : Table α) (ids : List Nat) : List (Row α) :=
  t.filter fun row => row.deleted = 0 && row.id ∈ ids

def live (t : Table α) : List (Row α) :=
  t.filter fun row => row.deleted = 0

def linked (t : Table α) (links : Links) (id : Nat) : List (Row α) :=
  t.filter fun row => row.deleted = 0 && (id, row.id) ∈ links

def create (t : Table α) (id : Nat) (value : α) : Table α :=
  t ++ [⟨id, 0, value⟩]

def modify (t : Table α) (ids : List Nat) (f : Row α -> Row α) : Table α :=
  t.map fun row => if row.deleted = 0 ∧ row.id ∈ ids then f row else row

def update (t : Table α) (ids : List Nat) (f : α -> α) : Table α :=
  t.modify ids fun row => { row with value := f row.value }

/-- The deletion flag of a row is its id. -/
def delete (t : Table α) (ids : List Nat) : Table α :=
  t.modify ids fun row => { row with deleted := row.id }

def deleteWhere (t : Table α) (p : α -> Bool) : Table α :=
  t.map fun row => if row.deleted = 0 ∧ p row.value then { row with deleted := row.id } else row

end Table

namespace Links

def relink (links : Links) (id : Nat) (targets : List Nat) : Links :=
  links.filter (fun link => link.1 ≠ id) ++ targets.map fun target => (id, target)

def unlink (links : Links) (target : Nat) : Links :=
  links.filter fun link => link.2 ≠ target

def sources (links : Links) (targets : List Nat) : List Nat :=
  (links.filter fun link => link.2 ∈ targets).map Prod.fst

variable {links : Links} {id target : Nat} {targets : List Nat}

theorem mem_sources : id ∈ links.sources targets ↔
    exists target, target ∈ targets ∧ (id, target) ∈ links := by
  unfold sources
  constructor
  · intro h
    rcases List.mem_map.mp h with ⟨link, hlink, rfl⟩
    rcases List.mem_filter.mp hlink with ⟨hmem, htarget⟩
    exact ⟨link.2, of_decide_eq_true htarget, hmem⟩
  · intro h
    rcases h with ⟨target, htarget, hmem⟩
    exact List.mem_map.mpr ⟨(id, target), List.mem_filter.mpr ⟨hmem, decide_eq_true htarget⟩, rfl⟩

theorem mem_relink {id' : Nat} : (id, target) ∈ links.relink id' targets ↔
    id ≠ id' ∧ (id, target) ∈ links ∨ id = id' ∧ target ∈ targets := by
  unfold relink
  constructor
  · intro h
    cases List.mem_append.mp h with
    | inl hold =>
        rcases List.mem_filter.mp hold with ⟨hmem, hne⟩
        exact .inl ⟨of_decide_eq_true hne, hmem⟩
    | inr hnew =>
        rcases List.mem_map.mp hnew with ⟨t, ht, heq⟩
        cases heq
        exact .inr ⟨rfl, ht⟩
  · intro h
    apply List.mem_append.mpr
    cases h with
    | inl hold => exact .inl (List.mem_filter.mpr ⟨hold.2, decide_eq_true hold.1⟩)
    | inr hnew =>
        rw [hnew.1]
        exact .inr (List.mem_map.mpr ⟨target, hnew.2, rfl⟩)

theorem mem_relink_of_ne {id' : Nat} (h : id ≠ id') :
    (id, target) ∈ links.relink id' targets ↔ (id, target) ∈ links := by
  simp [mem_relink, h]

theorem mem_unlink {target' : Nat} :
    (id, target) ∈ links.unlink target' ↔ target ≠ target' ∧ (id, target) ∈ links := by
  simp [unlink, and_comm]

end Links

namespace Table

variable {α : Type} {t : Table α} {links links' : Links} {id : Nat}

/-!
# Rows that stay

A row stays what it is when the change leaves it alone, and only the links of an id to rows
that are not deleted matter for what is linked to it.
-/

theorem get_mem {row : Row α} (h : t.get id = some row) :
    row ∈ t ∧ row.deleted = 0 ∧ row.id = id := by
  have hfound := List.find?_some h
  simp only [Bool.and_eq_true, decide_eq_true_eq] at hfound
  exact ⟨List.mem_of_find?_eq_some h, hfound⟩

theorem mem_linked {row : Row α} : row ∈ t.linked links id ↔
    row ∈ t ∧ row.deleted = 0 ∧ (id, row.id) ∈ links := by
  simp [linked]

theorem linked_congr (h : forall row, row ∈ t -> row.deleted = 0 ->
    ((id, row.id) ∈ links ↔ (id, row.id) ∈ links')) : t.linked links id = t.linked links' id := by
  unfold linked
  apply List.filter_congr
  intro row hrow
  by_cases hdeleted : row.deleted = 0
  · simp [h row hrow hdeleted]
  · simp [hdeleted]

theorem get_modify {ids : List Nat} {f : Row α -> Row α} (hid : forall row, (f row).id = row.id)
    (h : forall row, t.get id = some row -> id ∈ ids -> f row = row) :
    (t.modify ids f).get id = t.get id := by
  unfold Table.get Table.modify at *
  induction t with
  | nil => rfl
  | cons row rest ih =>
      rw [List.map_cons, List.find?_cons, List.find?_cons]
      rw [List.find?_cons] at h
      by_cases hfound : row.deleted = 0 ∧ row.id = id
      · have hrow : (if row.deleted = 0 ∧ row.id ∈ ids then f row else row) = row := by
          split
          · rename_i hhit
            exact h row (by simp [hfound]) (hfound.2 ▸ hhit.2)
          · rfl
        rw [hrow]
        simp [hfound]
      · have hskip : (decide (row.deleted = 0) && decide (row.id = id)) = false := by
          simpa using hfound
        rw [hskip] at h ⊢
        have hskip' : (decide ((if row.deleted = 0 ∧ row.id ∈ ids then f row else row).deleted = 0) &&
            decide ((if row.deleted = 0 ∧ row.id ∈ ids then f row else row).id = id)) = false := by
          split
          · rename_i hhit
            have hne : row.id ≠ id := fun heq => hfound ⟨hhit.1, heq⟩
            simp [hid, hne]
          · exact hskip
        rw [hskip']
        exact ih h

theorem get_update (ids : List Nat) (f : α -> α) : (t.update ids f).get id =
    (t.get id).map fun row =>
      if row.deleted = 0 ∧ row.id ∈ ids then { row with value := f row.value } else row := by
  unfold Table.get Table.update Table.modify
  rw [List.find?_map]
  congr 2
  funext row
  dsimp only [Function.comp]
  split <;> rfl

theorem linked_modify {ids : List Nat} {f : Row α -> Row α}
    (hid : forall row, (f row).id = row.id)
    (h : forall row, row ∈ t -> row.deleted = 0 -> row.id ∈ ids -> (id, row.id) ∉ links) :
    (t.modify ids f).linked links id = t.linked links id := by
  unfold Table.linked Table.modify
  induction t with
  | nil => rfl
  | cons row rest ih =>
      have hrest := ih fun r hr => h r (List.mem_cons_of_mem _ hr)
      rw [List.map_cons, List.filter_cons, List.filter_cons, hrest]
      by_cases hrow : row.deleted = 0 ∧ row.id ∈ ids
      · have hnot := h row List.mem_cons_self hrow.1 hrow.2
        simp [hrow, hid, hnot]
      · rw [if_neg hrow]

theorem get_create {newId : Nat} {value : α} (h : id ≠ newId) :
    (t.create newId value).get id = t.get id := by
  unfold Table.get Table.create
  rw [List.find?_append]
  simp [Ne.symm h]

theorem linked_create {newId : Nat} {value : α} (h : (id, newId) ∉ links) :
    (t.create newId value).linked links id = t.linked links id := by
  simp [linked, create, h]

/-!
# Ids

The ids of a table, deleted rows included.
-/

theorem ids_modify {ids : List Nat} {f : Row α -> Row α} (hid : forall row, (f row).id = row.id) :
    (t.modify ids f).ids = t.ids := by
  unfold Table.ids Table.modify
  rw [List.map_map]
  apply List.map_congr_left
  intro row _
  show (if row.deleted = 0 ∧ row.id ∈ ids then f row else row).id = row.id
  split
  · exact hid row
  · rfl

theorem update_of_get_none (h : t.get id = none) (f : α -> α) : t.update [id] f = t := by
  have hsame : forall row, row ∈ t ->
      (if row.deleted = 0 ∧ row.id ∈ [id] then { row with value := f row.value } else row) =
        row := by
    intro row hrow
    have hnot := List.find?_eq_none.mp h row hrow
    rw [if_neg]
    intro hhit
    simp [hhit.1, List.mem_singleton.mp hhit.2] at hnot
  exact (List.map_congr_left hsame).trans (List.map_id' t)

theorem ids_update (ids : List Nat) (f : α -> α) : (t.update ids f).ids = t.ids :=
  ids_modify fun _ => rfl

theorem ids_delete (ids : List Nat) : (t.delete ids).ids = t.ids :=
  ids_modify fun _ => rfl

theorem mem_ids_create {newId : Nat} {value : α} (h : id ∈ t.ids) :
    id ∈ (t.create newId value).ids := by
  unfold Table.ids Table.create
  rw [List.map_append]
  exact List.mem_append_left _ h

theorem nodup_ids_create {newId : Nat} {value : α} (h : t.ids.Nodup) (hnew : newId ∉ t.ids) :
    (t.create newId value).ids.Nodup := by
  unfold Table.ids Table.create
  rw [List.map_append, List.nodup_append]
  constructor
  · exact h
  · constructor
    · exact List.pairwise_singleton _ _
    · intro id hid last hlast heq
      rw [heq, List.mem_singleton.mp hlast] at hid
      exact hnew hid

/-!
# Live rows

An updated row stays live.
-/

theorem mem_live {row : Row α} : row ∈ t.live ↔ row ∈ t ∧ row.deleted = 0 := by
  simp [live]

theorem live_create (newId : Nat) (value : α) :
    (t.create newId value).live = t.live ++ [⟨newId, 0, value⟩] := by
  simp [live, create]

theorem live_update (ids : List Nat) (f : α -> α) : (t.update ids f).live =
    t.live.map fun row => if row.id ∈ ids then { row with value := f row.value } else row := by
  unfold Table.live Table.update Table.modify
  induction t with
  | nil => rfl
  | cons row rest ih =>
      rw [List.map_cons, List.filter_cons, List.filter_cons, ih]
      by_cases hrow : row.deleted = 0
      · by_cases hid : row.id ∈ ids
        · simp [hrow, hid]
        · simp [hrow, hid]
      · simp [hrow]

theorem mem_live_delete {ids : List Nat} {row : Row α} (h : row ∈ (t.delete ids).live) :
    row ∈ t.live := by
  rcases mem_live.mp h with ⟨hmem, hrow⟩
  rcases List.mem_map.mp hmem with ⟨old, hold, rfl⟩
  by_cases hhit : old.deleted = 0 ∧ old.id ∈ ids
  · rw [if_pos hhit] at hrow ⊢
    -- the deletion flag of the row with id 0 is 0
    have hsame : ({ old with deleted := old.id } : Row α) = old := by
      cases old
      simp_all
    dsimp only
    rw [hsame]
    exact mem_live.mpr ⟨hold, hhit.1⟩
  · rw [if_neg hhit] at hrow ⊢
    exact mem_live.mpr ⟨hold, hrow⟩

theorem live_delete_of_not_mem {ids : List Nat} {row : Row α} (h : row ∈ t.live)
    (hid : row.id ∉ ids) : row ∈ (t.delete ids).live := by
  rcases mem_live.mp h with ⟨hmem, hrow⟩
  apply mem_live.mpr
  constructor
  · apply List.mem_map.mpr
    exists row
    constructor
    · exact hmem
    · exact if_neg fun hhit => hid hhit.2
  · exact hrow

/-!
# Deleted rows

A query that asks for none of the deleted rows is answered as before.
-/

theorem ids_deleteWhere (p : α -> Bool) : (t.deleteWhere p).ids = t.ids := by
  unfold Table.ids Table.deleteWhere
  rw [List.map_map]
  apply List.map_congr_left
  intro row _
  dsimp only [Function.comp]
  split <;> rfl

theorem mem_live_deleteWhere {p : α -> Bool} (hpos : forall id, id ∈ t.ids -> 0 < id) {row : Row α}
    (h : row ∈ (t.deleteWhere p).live) : row ∈ t.live ∧ p row.value = false := by
  rcases mem_live.mp h with ⟨hmem, hrow⟩
  rcases List.mem_map.mp hmem with ⟨old, hold, rfl⟩
  by_cases hhit : old.deleted = 0 ∧ p old.value = true
  · rw [if_pos hhit] at hrow
    have hid := hpos old.id (List.mem_map_of_mem hold)
    dsimp only at hrow
    omega
  · rw [if_neg hhit] at hrow ⊢
    exact ⟨mem_live.mpr ⟨hold, hrow⟩, Bool.eq_false_iff.mpr fun hp => hhit ⟨hrow, hp⟩⟩

theorem get_deleteWhere {p : α -> Bool} (hpos : forall id, id ∈ t.ids -> 0 < id) {row : Row α}
    (h : t.get id = some row) (hp : p row.value = false) :
    (t.deleteWhere p).get id = some row := by
  unfold Table.get Table.deleteWhere at *
  induction t with
  | nil => cases h
  | cons first rest ih =>
      rw [List.map_cons, List.find?_cons]
      rw [List.find?_cons] at h
      by_cases hfound : first.deleted = 0 ∧ first.id = id
      · have hfirst : first = row := by simpa [hfound] using h
        subst hfirst
        rw [if_neg fun hhit => by rw [hp] at hhit; cases hhit.2]
        simp [hfound]
      · have hskip : (decide (first.deleted = 0) && decide (first.id = id)) = false := by
          simpa using hfound
        rw [hskip] at h
        have hid := hpos first.id (.head _)
        have hskip' : (decide ((if first.deleted = 0 ∧ p first.value = true then
            { first with deleted := first.id } else first).deleted = 0) &&
              decide ((if first.deleted = 0 ∧ p first.value = true then
                { first with deleted := first.id } else first).id = id)) = false := by
          split
          · rw [decide_eq_false (Nat.ne_of_gt hid)]
            rfl
          · exact hskip
        rw [hskip']
        exact ih (fun id hmem => hpos id (.tail _ hmem)) h

theorem filter_deleteWhere {p q : α -> Bool} (hpos : forall id, id ∈ t.ids -> 0 < id)
    (h : forall row, row ∈ t -> row.deleted = 0 -> q row.value = true -> p row.value = false) :
    ((t.deleteWhere p).filter fun row => row.deleted = 0 && q row.value) =
      t.filter fun row => row.deleted = 0 && q row.value := by
  unfold Table.deleteWhere
  induction t with
  | nil => rfl
  | cons first rest ih =>
      have hrest := ih (fun id hid => hpos id (.tail _ hid)) fun row hrow => h row (.tail _ hrow)
      rw [List.map_cons, List.filter_cons, List.filter_cons, hrest]
      by_cases hhit : first.deleted = 0 ∧ p first.value = true
      · have hid := hpos first.id (.head _)
        have hq : q first.value = false := by
          apply Bool.eq_false_iff.mpr
          intro hq
          rw [h first (.head _) hhit.1 hq] at hhit
          cases hhit.2
        rw [if_pos hhit]
        simp [hq]
      · rw [if_neg hhit]

theorem mem_ids_of_get {row : Row α} (h : t.get id = some row) : id ∈ t.ids := by
  rcases get_mem h with ⟨hmem, -, rfl⟩
  exact List.mem_map_of_mem hmem

end Table
end RagService
