import Mathlib.Data.List.Nodup
import RagService.Foundation.Tables

/-!
# Unique keys

Live rows of a table that have a key have different ones.  A row is added under a free key,
which a query by the key that finds nothing shows to be free, and a row that is changed keeps
its key or gets a free one.
-/

namespace RagService
namespace Table

variable {α κ : Type} {key : α -> Option κ} {t : Table α}

/-- Ids are not used twice, and neither are the keys of live rows. -/
structure Distinct (key : α -> Option κ) (t : Table α) : Prop where
  ids : t.ids.Nodup
  keys : forall {row row' k}, row ∈ t.live -> row' ∈ t.live -> key row.value = some k ->
    key row'.value = some k -> row = row'

theorem Distinct.nil : Distinct key ([] : Table α) := by
  constructor
  · exact List.nodup_nil
  · intro row row' k hrow
    cases hrow

def Free (key : α -> Option κ) (t : Table α) (k : κ) : Prop :=
  forall row, row ∈ t.live -> key row.value ≠ some k

theorem free_of_getBy {p : α -> Bool} {k : κ} (hp : forall v, key v = some k -> p v = true)
    (h : (t.getBy p).isSome = false) : Free key t k := by
  intro row hrow hkey
  rcases mem_live.mp hrow with ⟨hmem, hdeleted⟩
  have hnone : t.getBy p = none := by
    cases hfound : t.getBy p with
    | none => rfl
    | some found =>
        rw [hfound] at h
        cases h
  have hnot := List.find?_eq_none.mp hnone row hmem
  simp [hdeleted, hp row.value hkey] at hnot

theorem mem_live_of_get {id : Nat} {row : Row α} (h : t.get id = some row) : row ∈ t.live := by
  rcases get_mem h with ⟨hmem, hdeleted, -⟩
  exact mem_live.mpr ⟨hmem, hdeleted⟩

theorem Distinct.eq_of_id (h : t.Distinct key) {row row' : Row α} (hrow : row ∈ t.live)
    (hrow' : row' ∈ t.live) (hid : row.id = row'.id) : row = row' :=
  List.inj_on_of_nodup_map h.ids (mem_live.mp hrow).1 (mem_live.mp hrow').1 hid

theorem Distinct.create (h : t.Distinct key) {newId : Nat} {value : α} (hnew : newId ∉ t.ids)
    (hfree : forall k, key value = some k -> Free key t k) :
    (t.create newId value).Distinct key := by
  constructor
  · exact nodup_ids_create h.ids hnew
  · intro row row' k hrow hrow' hkey hkey'
    rw [live_create] at hrow hrow'
    cases List.mem_append.mp hrow with
    | inl hold =>
        cases List.mem_append.mp hrow' with
        | inl hold' => exact h.keys hold hold' hkey hkey'
        | inr hlast =>
            rw [List.mem_singleton.mp hlast] at hkey'
            exact absurd hkey (hfree k hkey' row hold)
    | inr hlast =>
        cases List.mem_append.mp hrow' with
        | inl hold' =>
            rw [List.mem_singleton.mp hlast] at hkey
            exact absurd hkey' (hfree k hkey row' hold')
        | inr hlast' => rw [List.mem_singleton.mp hlast, List.mem_singleton.mp hlast']

theorem mem_live_update {id : Nat} {f : α -> α} {row : Row α}
    (h : row ∈ (t.update [id] f).live) :
    row ∈ t.live ∧ row.id ≠ id ∨
      exists old, old ∈ t.live ∧ old.id = id ∧ row = { old with value := f old.value } := by
  rw [live_update] at h
  rcases List.mem_map.mp h with ⟨old, hold, rfl⟩
  by_cases hid : old.id ∈ [id]
  · rw [if_pos hid]
    exact .inr ⟨old, hold, List.mem_singleton.mp hid, rfl⟩
  · rw [if_neg hid]
    exact .inl ⟨hold, fun heq => hid (List.mem_singleton.mpr heq)⟩

theorem Distinct.update (h : t.Distinct key) {id : Nat} {f : α -> α} {found : Row α}
    (hfound : t.get id = some found)
    (hfree : forall k, key (f found.value) = some k -> key found.value = some k ∨ Free key t k) :
    (t.update [id] f).Distinct key := by
  have hlive := mem_live_of_get hfound
  have hchanged : forall {old : Row α}, old ∈ t.live -> old.id = id -> old = found := by
    intro old hold hid
    exact h.eq_of_id hold hlive (hid.trans (get_mem hfound).2.2.symm)
  -- another row cannot have the key that the changed row has now
  have hapart : forall {row : Row α} {k}, row ∈ t.live -> row.id ≠ id ->
      key row.value = some k -> key (f found.value) = some k -> False := by
    intro row k hrow hid hkey hkey'
    cases hfree k hkey' with
    | inl hsame =>
        have heq := h.keys hrow hlive hkey hsame
        rw [heq] at hid
        exact hid (get_mem hfound).2.2
    | inr hnone => exact hnone row hrow hkey
  constructor
  · rw [ids_update]
    exact h.ids
  · intro row row' k hrow hrow' hkey hkey'
    rcases mem_live_update hrow with ⟨hold, hid⟩ | ⟨old, hold, hid, rfl⟩
    · rcases mem_live_update hrow' with ⟨hold', hid'⟩ | ⟨old', hold', hid', rfl⟩
      · exact h.keys hold hold' hkey hkey'
      · rw [hchanged hold' hid'] at hkey'
        exact (hapart hold hid hkey hkey').elim
    · rcases mem_live_update hrow' with ⟨hold', hid'⟩ | ⟨old', hold', hid', rfl⟩
      · rw [hchanged hold hid] at hkey
        exact (hapart hold' hid' hkey' hkey).elim
      · rw [hchanged hold hid, hchanged hold' hid']

/-- A change that leaves the keys as they are. -/
theorem Distinct.update_of_key (h : t.Distinct key) (id : Nat) {f : α -> α}
    (hf : forall v, key (f v) = key v) : (t.update [id] f).Distinct key := by
  cases hfound : t.get id with
  | none =>
      rw [update_of_get_none hfound]
      exact h
  | some found =>
      apply h.update hfound
      intro k hk
      rw [hf] at hk
      exact .inl hk

theorem Distinct.delete (h : t.Distinct key) (ids : List Nat) : (t.delete ids).Distinct key := by
  constructor
  · rw [ids_delete]
    exact h.ids
  · intro row row' k hrow hrow' hkey hkey'
    exact h.keys (mem_live_delete hrow) (mem_live_delete hrow') hkey hkey'

theorem Distinct.deleteWhere (h : t.Distinct key) (p : α -> Bool)
    (hpos : forall id, id ∈ t.ids -> 0 < id) : (t.deleteWhere p).Distinct key := by
  constructor
  · rw [ids_deleteWhere]
    exact h.ids
  · intro row row' k hrow hrow' hkey hkey'
    exact h.keys (mem_live_deleteWhere hpos hrow).1 (mem_live_deleteWhere hpos hrow').1 hkey hkey'

end Table
end RagService
