import RagService.Scheduler.Beat

/-!
# The unique constraint

No two rows that are not deleted have the same name, whatever the transactions in flight
commit.
-/

namespace RagService

open Interleaving

namespace SchedulerState

variable {fromString : FromString} {s s' : SchedulerState} {w : Write} {name : Text} {id : Nat}
variable {row : Row TaskScheduler}

theorem mem_holders : id ∈ s.holders name ↔
    (exists row, row ∈ s.rows ∧ row.deleted = 0 ∧ row.value.name = name ∧ row.id = id) ∨
      exists w, w ∈ s.inFlight ∧ w.claim = some name ∧ w.id = id := by
  simp only [holders, List.mem_append, List.mem_map, List.mem_filter, Bool.and_eq_true,
    decide_eq_true_eq, and_assoc]

def Sound (s : SchedulerState) (w : Write) : Prop :=
  match w.change with
  | .insert m => w.id ∉ s.rows.ids ∧ w.id < s.nextId ∧ w.claim = some m.name
  | .update assignments => forall row, row ∈ s.rows -> row.id = w.id -> row.deleted = 0 ->
      (row.value.assign assignments).name = row.value.name ∨
        w.claim = some (row.value.assign assignments).name
  | .delete => True

structure Consistent (s : SchedulerState) : Prop where
  ids : s.rows.ids.Nodup
  below : forall id, id ∈ s.rows.ids -> id < s.nextId
  sound : forall w, w ∈ s.inFlight -> s.Sound w
  one : forall name a b, a ∈ s.holders name -> b ∈ s.holders name -> a = b

/-!
# Commits

The name of a row after a commit was its name before, or has been claimed for it; only an
insertion adds an id.
-/

theorem mem_apply_of_ne (h : row ∈ w.apply s.rows) (hne : row.id ≠ w.id) : row ∈ s.rows := by
  unfold Write.apply at h
  split at h
  · cases List.mem_append.mp h with
    | inl hold => exact hold
    | inr hnew =>
        rw [List.mem_singleton.mp hnew] at hne
        exact absurd rfl hne
  · rcases List.mem_map.mp h with ⟨old, hold, heq⟩
    split at heq
    · rename_i hid
      rw [← heq] at hne
      exact absurd hid hne
    · rw [← heq]
      exact hold
  · rcases List.mem_map.mp h with ⟨old, hold, heq⟩
    split at heq
    · rename_i hid
      rw [← heq] at hne
      exact absurd (List.mem_singleton.mp hid.2) hne
    · rw [← heq]
      exact hold

/-- The name of a row after the commit was its name before, or has been claimed for it. -/
theorem name_of_mem_apply (hsound : s.Sound w) (h : row ∈ w.apply s.rows)
    (hlive : row.deleted = 0) :
    (exists old, old ∈ s.rows ∧ old.deleted = 0 ∧ old.value.name = row.value.name ∧
      old.id = row.id) ∨ w.claim = some row.value.name ∧ w.id = row.id := by
  unfold Sound at hsound
  unfold Write.apply at h
  split at h
  · rename_i m hchange
    rw [hchange] at hsound
    cases List.mem_append.mp h with
    | inl hold => exact .inl ⟨row, hold, hlive, rfl, rfl⟩
    | inr hnew =>
        rw [List.mem_singleton.mp hnew]
        exact .inr ⟨hsound.2.2, rfl⟩
  · rename_i assignments hchange
    rw [hchange] at hsound
    rcases List.mem_map.mp h with ⟨old, hold, heq⟩
    split at heq
    · rename_i hid
      rw [← heq] at hlive ⊢
      cases hsound old hold hid hlive with
      | inl hsame => exact .inl ⟨old, hold, hlive, hsame.symm, rfl⟩
      | inr hclaim => exact .inr ⟨hclaim, hid.symm⟩
    · rw [← heq] at hlive ⊢
      exact .inl ⟨old, hold, hlive, rfl, rfl⟩
  · rcases List.mem_map.mp h with ⟨old, hold, heq⟩
    split at heq
    · rename_i hit
      rw [← heq]
      exact .inl ⟨old, hold, hit.1, rfl, rfl⟩
    · rw [← heq] at hlive ⊢
      exact .inl ⟨old, hold, hlive, rfl, rfl⟩

theorem ids_apply (w : Write) (rows : Table TaskScheduler) :
    (w.apply rows).ids =
      match w.change with
      | .insert _ => rows.ids ++ [w.id]
      | .update _ | .delete => rows.ids := by
  rcases w with ⟨id, change, claim⟩
  cases change with
  | insert m => exact List.map_append
  | update assignments =>
      show (rows.map fun row => if row.id = id then
        { row with value := row.value.assign assignments } else row).map Row.id = rows.map Row.id
      rw [List.map_map]
      apply List.map_congr_left
      intro row _
      simp only [Function.comp]
      split
      · rfl
      · rfl
  | delete => exact Table.ids_delete ..

theorem mem_ids_apply (hsound : s.Sound w) (h : id ∈ (w.apply s.rows).ids) :
    id ∈ s.rows.ids ∨ id = w.id ∧ id < s.nextId := by
  unfold Sound at hsound
  rw [ids_apply] at h
  split at h
  · rename_i hchange
    rw [hchange] at hsound
    cases List.mem_append.mp h with
    | inl hold => exact .inl hold
    | inr hnew =>
        rw [List.mem_singleton.mp hnew]
        exact .inr ⟨rfl, hsound.2.1⟩
  · exact .inl h
  · exact .inl h

theorem nodup_ids_apply (hids : s.rows.ids.Nodup) (hsound : s.Sound w) :
    (w.apply s.rows).ids.Nodup := by
  unfold Sound at hsound
  rw [ids_apply]
  split
  · rename_i hchange
    rw [hchange] at hsound
    exact hids.append (List.nodup_singleton _) (List.disjoint_singleton.mpr hsound.1)
  · exact hids
  · exact hids

theorem holders_committed (hsound : s.Sound w) (hw : w ∈ s.inFlight)
    (h : id ∈ (s.committed w).holders name) : id ∈ s.holders name := by
  apply mem_holders.mpr
  cases mem_holders.mp h with
  | inl hrow =>
      rcases hrow with ⟨row, hrow, hlive, hname, hid⟩
      cases name_of_mem_apply hsound hrow hlive with
      | inl hold =>
          rcases hold with ⟨old, hold, hlive', hname', hid'⟩
          exact .inl ⟨old, hold, hlive', hname'.trans hname, hid'.trans hid⟩
      | inr hclaim =>
          rw [hname, hid] at hclaim
          exact .inr ⟨w, hw, hclaim⟩
  | inr hclaim =>
      rcases hclaim with ⟨u, hu, hclaim⟩
      exact .inr ⟨u, List.mem_of_mem_filter hu, hclaim⟩

theorem sound_committed {u : Write} (hsound : s.Sound w) (hu : s.Sound u) (hne : u.id ≠ w.id) :
    (s.committed w).Sound u := by
  unfold Sound at hu ⊢
  split at hu
  · rcases hu with ⟨hnew, hbelow, hclaim⟩
    refine ⟨?_, hbelow, hclaim⟩
    intro hmem
    cases mem_ids_apply hsound hmem with
    | inl hold => exact hnew hold
    | inr heq => exact hne heq.1
  · intro row hrow hid hlive
    have hother : row.id ≠ w.id := by
      rw [hid]
      exact hne
    exact hu row (mem_apply_of_ne hrow hother) hid hlive
  · trivial

theorem Consistent.committed (h : s.Consistent) (hw : w ∈ s.inFlight) :
    (s.committed w).Consistent where
  ids := nodup_ids_apply h.ids (h.sound w hw)
  below := by
    intro id hid
    cases mem_ids_apply (h.sound w hw) hid with
    | inl hold => exact h.below id hold
    | inr hnew => exact hnew.2
  sound := by
    intro u hu
    rcases List.mem_filter.mp hu with ⟨hmem, hne⟩
    exact sound_committed (h.sound w hw) (h.sound u hmem) (of_decide_eq_true hne)
  one := by
    intro name a b ha hb
    exact h.one name a b (holders_committed (h.sound w hw) hw ha)
      (holders_committed (h.sound w hw) hw hb)

/-!
# Flushes

Rows and flushed changes stay, and the claim of an update is the new name of the row.
-/

theorem Consistent.mono (h : s.Consistent) (hrows : s'.rows = s.rows)
    (hnext : s.nextId ≤ s'.nextId) (hinFlight : s'.inFlight = s.inFlight) : s'.Consistent := by
  have hholders : forall name, s'.holders name = s.holders name := by
    intro name
    unfold holders
    rw [hrows, hinFlight]
  constructor
  · rw [hrows]
    exact h.ids
  · intro id hid
    rw [hrows] at hid
    exact Nat.lt_of_lt_of_le (h.below id hid) hnext
  · intro w hw
    rw [hinFlight] at hw
    have hsound := h.sound w hw
    unfold Sound at hsound ⊢
    rw [hrows]
    split at hsound
    · exact ⟨hsound.1, Nat.lt_of_lt_of_le hsound.2.1 hnext, hsound.2.2⟩
    · exact hsound
    · trivial
  · intro name a b ha hb
    rw [hholders] at ha hb
    exact h.one name a b ha hb

theorem Consistent.flush (h : s.Consistent) (hsound : s.Sound w)
    (hfree : forall name, w.claim = some name -> s.holders name = []) :
    (s.flush w).Consistent where
  ids := h.ids
  below := h.below
  sound := by
    intro u hu
    cases List.mem_append.mp hu with
    | inl hold => exact h.sound u hold
    | inr hnew =>
        rw [List.mem_singleton.mp hnew]
        exact hsound
  one := by
    have hcases : forall name id, id ∈ (s.flush w).holders name ->
        id ∈ s.holders name ∨ w.claim = some name ∧ w.id = id := by
      intro name id hid
      cases mem_holders.mp hid with
      | inl hrow => exact .inl (mem_holders.mpr (.inl hrow))
      | inr hclaim =>
          rcases hclaim with ⟨u, hu, hclaim⟩
          cases List.mem_append.mp hu with
          | inl hold => exact .inl (mem_holders.mpr (.inr ⟨u, hold, hclaim⟩))
          | inr hnew =>
              rw [List.mem_singleton.mp hnew] at hclaim
              exact .inr hclaim
    intro name a b ha hb
    by_cases hclaim : w.claim = some name
    · have hnone : forall id, id ∉ s.holders name := by
        intro id
        rw [hfree name hclaim]
        exact List.not_mem_nil
      cases hcases name a ha with
      | inl hold => exact absurd hold (hnone a)
      | inr hnew =>
          cases hcases name b hb with
          | inl hold => exact absurd hold (hnone b)
          | inr hnew' => exact hnew.2.symm.trans hnew'.2
    · cases hcases name a ha with
      | inl hold =>
          cases hcases name b hb with
          | inl hold' => exact h.one name a b hold hold'
          | inr hnew => exact absurd hnew.1 hclaim
      | inr hnew => exact absurd hnew.1 hclaim

theorem get_eq_some (hids : s.rows.ids.Nodup) (hrow : row ∈ s.rows) (hid : row.id = id)
    (hlive : row.deleted = 0) : s.rows.get id = some row := by
  unfold Table.get
  cases hfind : s.rows.find? fun row => row.deleted = 0 && row.id = id with
  | none =>
      have hnot := List.find?_eq_none.mp hfind row hrow
      simp [hid, hlive] at hnot
  | some found =>
      have hfound := List.find?_some hfind
      simp only [Bool.and_eq_true, decide_eq_true_eq] at hfound
      rw [List.inj_on_of_nodup_map hids (List.mem_of_find?_eq_some hfind) hrow
        (hfound.2.trans hid.symm)]

theorem sound_update (hids : s.rows.ids.Nodup) (id : Nat) (assignments : List Assignment) :
    s.Sound ⟨id, .update assignments, s.claim id assignments⟩ := by
  intro row hrow hid hlive
  unfold claim
  rw [get_eq_some hids hrow hid hlive]
  by_cases hsame : (row.value.assign assignments).name = row.value.name
  · exact .inl hsame
  · exact .inr (if_neg hsame)

theorem Consistent.exec (h : s.Consistent) (c : SchedulerCommand) :
    (s.exec fromString c).1.Consistent := by
  cases c with
  | insert m =>
      have hnext : ({ s with nextId := s.nextId + 1 } : SchedulerState).Consistent :=
        h.mono rfl (Nat.le_succ _) rfl
      simp only [SchedulerState.exec]
      split
      · rename_i hfree
        apply hnext.flush
        · refine ⟨?_, Nat.lt_succ_self _, rfl⟩
          intro hmem
          exact Nat.lt_irrefl _ (h.below _ hmem)
        · intro name hclaim
          cases hclaim
          exact hfree
      · exact hnext
  | update id assignments =>
      simp only [SchedulerState.exec]
      split
      · rename_i hfree
        apply h.flush (sound_update h.ids id assignments)
        intro name hclaim
        have hclaim : s.claim id assignments = some name := hclaim
        rw [hclaim] at hfree
        exact of_decide_eq_true hfree
      · exact h
  | delete pk =>
      simp only [SchedulerState.exec]
      split
      · apply h.flush
        · trivial
        · nofun
      · exact h
  | commit id =>
      simp only [SchedulerState.exec]
      split
      · rename_i w hw
        exact h.committed (List.mem_of_find?_eq_some hw)
      · exact h
  | getLastUpdate now =>
      simp only [SchedulerState.exec]
      split
      · exact h
      · exact h.mono rfl (Nat.le_refl _) rfl
  | fetch =>
      simp only [SchedulerState.exec]
      split
      · exact h.mono rfl (Nat.le_refl _) rfl
      · exact h.mono rfl (Nat.le_refl _) rfl
  | showTime _ | now | get _ | getByName _ | createTask | startTask | startDisable =>
      exact h.mono rfl (Nat.le_refl _) rfl
  | setLastUpdate _ | enter | leave => exact h.mono rfl (Nat.le_refl _) rfl

/-!
# Entries

Entries are found by the names of the rows that they were made of.
-/

theorem Consistent.get_entriesOf (h : s.Consistent) :
    (entriesOf (enabledRows s.rows)).get name = some row ↔
      row ∈ s.rows ∧ row.value.enabled = true ∧ row.deleted = 0 ∧ row.value.name = name := by
  have hmem : forall row, row ∈ enabledRows s.rows ↔
      row ∈ s.rows ∧ row.value.enabled = true ∧ row.deleted = 0 := by
    intro row
    simp [enabledRows]
  have hinj : forall a, a ∈ enabledRows s.rows -> forall b, b ∈ enabledRows s.rows ->
      a.value.name = b.value.name -> a = b := by
    intro a ha b hb hname
    rcases (hmem a).mp ha with ⟨ha, -, hlive⟩
    rcases (hmem b).mp hb with ⟨hb, -, hlive'⟩
    have hid : a.id = b.id := h.one b.value.name a.id b.id
      (mem_holders.mpr (.inl ⟨a, ha, hlive, hname, rfl⟩))
      (mem_holders.mpr (.inl ⟨b, hb, hlive', rfl, rfl⟩))
    exact List.inj_on_of_nodup_map h.ids ha hb hid
  have hrows : (enabledRows s.rows).Nodup := (List.Nodup.of_map _ h.ids).filter _
  have hkeys : (((enabledRows s.rows).map fun row => (row.value.name, row)).map
      Prod.fst).Nodup := by
    rw [List.map_map]
    exact hrows.map_on hinj
  unfold entriesOf
  rw [Dict.get_ofPairs_eq_some hkeys]
  constructor
  · intro hpair
    rcases List.mem_map.mp hpair with ⟨row', hrow', heq⟩
    cases heq
    rcases (hmem row).mp hrow' with ⟨hrow', henabled, hlive⟩
    exact ⟨hrow', henabled, hlive, rfl⟩
  · intro hrow
    rcases hrow with ⟨hrow, henabled, hlive, hname⟩
    rw [← hname]
    exact List.mem_map_of_mem (f := fun row => (row.value.name, row))
      ((hmem row).mpr ⟨hrow, henabled, hlive⟩)

end SchedulerState
end RagService
