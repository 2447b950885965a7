import RagService.Foundation.Tables
import RagService.Properties.SchedulerSync

/-!
# One-off tasks are sent once

What keeps a one-off task from being sent again is the count of its object, and after the
schedule has been read again the count of its row.  As long as one of them still has to be
written, the name of the entry is dirty.
-/

namespace RagService
namespace RunRecords

open RagService.RunRecords.DatabaseScheduler

section

variable {s s' s₁ : DatabaseScheduler} {id ref now : Nat} {name : Text} {model : TaskObject}
variable {rows rows' : Table TaskRecord} {script : Script} {failed failed' : List Text}

/-!
# Rows of a task

A row is neither added nor changed but by updates, so the row of a task that has run stays as
it is.
-/

def Resting (rows : Table TaskRecord) (id : Nat) : Prop :=
  forall row, row ∈ rows -> row.id = id -> row.deleted = 0 -> row.value.fields.enabled = false

def Recorded (rows : Table TaskRecord) (id : Nat) : Prop :=
  forall row, row ∈ rows -> row.id = id -> row.deleted = 0 -> row.value.fields.enabled = true ->
    0 < row.value.totalRunCount

/-- Nothing is enabled, and no count is changed. -/
def Subsides (id : Nat) (rows rows' : Table TaskRecord) : Prop :=
  forall row', row' ∈ rows' -> row'.id = id -> row'.deleted = 0 ->
    row'.value.fields.enabled = true ->
      exists row, row ∈ rows ∧ row.id = id ∧ row.deleted = 0 ∧
        row.value.fields.enabled = true ∧ row.value.totalRunCount = row'.value.totalRunCount

theorem Resting.recorded (h : Resting rows id) : Recorded rows id := by
  intro row hrow hid hlive henabled
  rw [h row hrow hid hlive] at henabled
  cases henabled

theorem Resting.subsides (h : Resting rows id) (hrows : Subsides id rows rows') :
    Resting rows' id := by
  intro row' hrow' hid hlive
  cases henabled : row'.value.fields.enabled with
  | false => rfl
  | true =>
      rcases hrows row' hrow' hid hlive henabled with ⟨row, hrow, hrowId, hrowLive, htrue, _⟩
      rw [h row hrow hrowId hrowLive] at htrue
      cases htrue

theorem Recorded.subsides (h : Recorded rows id) (hrows : Subsides id rows rows') :
    Recorded rows' id := by
  intro row' hrow' hid hlive henabled
  rcases hrows row' hrow' hid hlive henabled with ⟨row, hrow, hrowId, hrowLive, htrue, hcount⟩
  rw [← hcount]
  exact h row hrow hrowId hrowLive htrue

theorem mem_update {ids : List Nat} {f : TaskRecord -> TaskRecord} {row' : Row TaskRecord}
    (h : row' ∈ rows.update ids f) :
    row' ∈ rows ∧ ¬ (row'.deleted = 0 ∧ row'.id ∈ ids) ∨
      exists row, row ∈ rows ∧ row.deleted = 0 ∧ row.id ∈ ids ∧
        row' = { row with value := f row.value } := by
  rcases List.mem_map.mp h with ⟨row, hrow, heq⟩
  split at heq
  · rename_i hchosen
    exact .inr ⟨row, hrow, hchosen.1, hchosen.2, heq.symm⟩
  · rename_i hother
    rw [← heq]
    exact .inl ⟨hrow, hother⟩

theorem subsides_update {ids : List Nat} {f : TaskRecord -> TaskRecord}
    (hf : id ∈ ids -> forall record, (f record).totalRunCount = record.totalRunCount ∧
      ((f record).fields.enabled = true -> record.fields.enabled = true)) :
    Subsides id rows (rows.update ids f) := by
  intro row' hrow' hid hlive henabled
  rcases mem_update hrow' with ⟨hrow, _⟩ | ⟨row, hrow, hrowLive, hin, heq⟩
  · exact ⟨row', hrow, hid, hlive, henabled, rfl⟩
  · rw [heq] at hid henabled
    rcases hf (hid ▸ hin) row.value with ⟨hcount, hback⟩
    refine ⟨row, hrow, hid, hrowLive, hback henabled, ?_⟩
    rw [heq]
    exact hcount.symm

/-!
# Entries
-/

theorem entry_eq_some (h : s.entry name = some model) :
    exists ref, s.schedule.get name = some ref ∧ s.objects[ref]? = some model :=
  Option.bind_eq_some_iff.mp h

theorem entry_modifyObject (ref : Nat) (f : TaskObject -> TaskObject) (name : Text) :
    (s.modifyObject ref f).entry name =
      (s.entry name).map fun model =>
        if s.schedule.get name = some ref then f model else model := by
  unfold entry modifyObject
  cases s.schedule.get name with
  | none => rfl
  | some ref' =>
      dsimp only [Option.bind_some]
      rw [List.getElem?_modify]
      by_cases heq : ref = ref'
      · rw [heq]
        simp only [if_true]
        rfl
      · have hne : ¬ some ref' = some ref := fun h => heq (Option.some.inj h).symm
        simp only [if_neg heq, if_neg hne]
        rfl

/-!
# The invariant

The entries have the names of their objects, a task has one of them at most, and what is known
of a task that has been sent is in its object, in its row, or still to be written.
-/

def EntryOf (s : DatabaseScheduler) (id : Nat) (name : Text) (model : TaskObject) : Prop :=
  s.entry name = some model ∧ model.id = id

def Pending (s : DatabaseScheduler) (id : Nat) : Prop :=
  exists name model, name ∈ s.dirty ∧ EntryOf s id name model

structure Keyed (id : Nat) (s : DatabaseScheduler) : Prop where
  rowIds : s.rows.ids.Nodup
  rowOneOff : forall row, row ∈ s.rows -> row.id = id -> row.value.fields.oneOff = true
  keys : (s.schedule.map Prod.fst).Nodup
  named : forall name ref, s.schedule.get name = some ref ->
    exists model, s.objects[ref]? = some model ∧ model.name = name
  oneOff : forall name model, EntryOf s id name model ->
    model.record.fields.oneOff = true ∧ id ∈ s.rows.ids
  unique : forall name model name' model', EntryOf s id name model ->
    EntryOf s id name' model' -> name = name'
  heap : forall ref, ref ∈ s.heap -> exists name, s.schedule.get name = some ref
  sent : id ∈ s.dispatched -> id ∈ s.rows.ids

/-- The object of the task has run, or no one will ask for it again. -/
def Counted (s : DatabaseScheduler) (id : Nat) : Prop :=
  forall name model, EntryOf s id name model -> 0 < model.record.totalRunCount ∨
    (model.record.fields.enabled = false ∧ Resting s.rows id)

/-- What is known of a task that has been sent. -/
structure Ran (id : Nat) (s : DatabaseScheduler) : Prop where
  counted : Counted s id
  rows : Recorded s.rows id ∨ Pending s id

structure Tracked (id : Nat) (s : DatabaseScheduler) : Prop where
  keyed : Keyed id s
  once : s.dispatched.count id ≤ 1
  ran : s.running = true -> id ∈ s.dispatched -> Ran id s

/-!
# Other rows

A request on rows may do anything but enable the task again or change what it is.  When no name
is to be saved, the run of the task is in its row.
-/

theorem Keyed.put (h : Keyed id s) (dirty : List Text) (running : Bool) :
    Keyed id { s with dirty := dirty, running := running } :=
  ⟨h.rowIds, h.rowOneOff, h.keys, h.named, h.oneOff, h.unique, h.heap, h.sent⟩

theorem Ran.recorded (h : Ran id s) (hnone : s.dirty = []) : Recorded s.rows id := by
  refine h.rows.resolve_right ?_
  intro hpending
  rcases hpending with ⟨n, model, hdirty, _⟩
  rw [hnone] at hdirty
  exact List.not_mem_nil hdirty

theorem Keyed.of_rows (h : Keyed id s) (hids : rows'.ids.Nodup)
    (honeOff : forall row, row ∈ rows' -> row.id = id -> row.value.fields.oneOff = true)
    (hkept : id ∈ s.rows.ids -> id ∈ rows'.ids) : Keyed id { s with rows := rows' } where
  rowIds := hids
  rowOneOff := honeOff
  keys := h.keys
  named := h.named
  oneOff := fun name model hentry => (h.oneOff name model hentry).imp_right hkept
  unique := h.unique
  heap := h.heap
  sent := fun hsent => hkept (h.sent hsent)

theorem Ran.of_rows (h : Ran id s) (hrows : Subsides id s.rows rows') :
    Ran id { s with rows := rows' } where
  counted := fun name model hentry =>
    (h.counted name model hentry).imp_right fun hrest => hrest.imp_right (·.subsides hrows)
  rows := h.rows.imp_left (·.subsides hrows)

theorem Tracked.update {ids : List Nat} {f : TaskRecord -> TaskRecord} (h : Tracked id s)
    (hoff : id ∈ ids -> forall record, (f record).totalRunCount = record.totalRunCount ∧
      ((f record).fields.enabled = true -> record.fields.enabled = true))
    (honeOff : id ∈ ids -> forall record, record.fields.oneOff = true ->
      (f record).fields.oneOff = true) : Tracked id { s with rows := s.rows.update ids f } where
  keyed := by
    have hids := Table.ids_update (t := s.rows) ids f
    apply h.keyed.of_rows
    · rw [hids]
      exact h.keyed.rowIds
    · intro row' hrow' hid
      rcases mem_update hrow' with ⟨hrow, _⟩ | ⟨row, hrow, _, hin, heq⟩
      · exact h.keyed.rowOneOff row' hrow hid
      · rw [heq] at hid ⊢
        exact honeOff (hid ▸ hin) row.value (h.keyed.rowOneOff row hrow hid)
    · rw [hids]
      exact fun hin => hin
  once := h.once
  ran := fun hrunning hsent => (h.ran hrunning hsent).of_rows (subsides_update hoff)

theorem Tracked.create {newId : Nat} {record : TaskRecord} (h : Tracked id s)
    (hnew : newId ∉ s.rows.ids) (honeOff : newId = id -> record.fields.oneOff = true) :
    Tracked id { s with rows := s.rows.create newId record } where
  keyed := by
    apply h.keyed.of_rows
    · exact Table.nodup_ids_create h.keyed.rowIds hnew
    · intro row hrow hid
      cases List.mem_append.mp hrow with
      | inl hold => exact h.keyed.rowOneOff row hold hid
      | inr hrow =>
          rw [List.mem_singleton.mp hrow] at hid ⊢
          exact honeOff hid
    · exact Table.mem_ids_create
  once := h.once
  ran := by
    intro hrunning hsent
    apply (h.ran hrunning hsent).of_rows
    intro row' hrow' hid hlive henabled
    cases List.mem_append.mp hrow' with
    | inl hold => exact ⟨row', hold, hid, hlive, henabled, rfl⟩
    | inr hrow =>
        -- a task that has been sent has a row, so the new row is another's
        rw [List.mem_singleton.mp hrow] at hid
        have hnewId : newId = id := hid
        rw [hnewId] at hnew
        exact absurd (h.keyed.sent hsent) hnew

theorem Tracked.delete {ids : List Nat} (h : Tracked id s) :
    Tracked id { s with rows := s.rows.delete ids } where
  keyed := by
    have hids := Table.ids_delete (t := s.rows) ids
    apply h.keyed.of_rows
    · rw [hids]
      exact h.keyed.rowIds
    · intro row' hrow' hid
      rcases List.mem_map.mp hrow' with ⟨row, hrow, heq⟩
      split at heq
      · rw [← heq] at hid ⊢
        exact h.keyed.rowOneOff row hrow hid
      · rw [← heq] at hid ⊢
        exact h.keyed.rowOneOff row hrow hid
    · rw [hids]
      exact fun hin => hin
  once := h.once
  ran := by
    intro hrunning hsent
    apply (h.ran hrunning hsent).of_rows
    intro row' hrow' hid hlive henabled
    rcases List.mem_map.mp hrow' with ⟨row, hrow, heq⟩
    split at heq
    · rename_i hchosen
      rw [← heq] at hid hlive henabled ⊢
      exact ⟨row, hrow, hid, hchosen.1, henabled, rfl⟩
    · rw [← heq] at hid hlive henabled ⊢
      exact ⟨row, hrow, hid, hlive, henabled, rfl⟩

/-!
# Changed objects

An entry after an object has changed was an entry before.
-/

structure KeepsTask (f : TaskObject -> TaskObject) : Prop where
  id : forall model, (f model).id = model.id
  name : forall model, (f model).name = model.name
  oneOff : forall model, (f model).record.fields.oneOff = model.record.fields.oneOff

theorem keepsTask_next (now : Nat) : KeepsTask (ModelEntry.next now) :=
  ⟨fun _ => rfl, fun _ => rfl, fun _ => rfl⟩

theorem keepsTask_disabled : KeepsTask ModelEntry.disabled :=
  ⟨fun _ => rfl, fun _ => rfl, fun _ => rfl⟩

theorem entryOf_modifyObject {f : TaskObject -> TaskObject} (hf : KeepsTask f)
    (h : EntryOf (s.modifyObject ref f) id name model) :
    exists old, EntryOf s id name old ∧
      (s.schedule.get name = some ref ∧ model = f old ∨
        s.schedule.get name ≠ some ref ∧ model = old) := by
  rcases h with ⟨hentry, hid⟩
  rw [entry_modifyObject] at hentry
  rcases Option.map_eq_some_iff.mp hentry with ⟨old, hold, heq⟩
  refine ⟨old, ?_⟩
  split at heq
  · rename_i hget
    rw [← heq, hf.id] at hid
    exact ⟨⟨hold, hid⟩, .inl ⟨hget, heq.symm⟩⟩
  · rename_i hget
    rw [← heq] at hid
    exact ⟨⟨hold, hid⟩, .inr ⟨hget, heq.symm⟩⟩

theorem Pending.modifyObject {f : TaskObject -> TaskObject} (h : Pending s id)
    (hf : KeepsTask f) : Pending (s.modifyObject ref f) id := by
  rcases h with ⟨name, model, hdirty, hentry, hid⟩
  have hentry' := entry_modifyObject (s := s) ref f name
  rw [hentry] at hentry'
  refine ⟨name, _, hdirty, hentry', ?_⟩
  split
  · rw [hf.id]
    exact hid
  · exact hid

theorem Keyed.modifyObject {f : TaskObject -> TaskObject} (h : Keyed id s) (hf : KeepsTask f)
    (ref : Nat) : Keyed id (s.modifyObject ref f) where
  rowIds := h.rowIds
  rowOneOff := h.rowOneOff
  keys := h.keys
  named := by
    intro name ref' hget
    rcases h.named name ref' hget with ⟨model, hmodel, hname⟩
    have hget' : (s.modifyObject ref f).objects[ref']? =
        some (if ref = ref' then f model else model) := by
      unfold DatabaseScheduler.modifyObject
      rw [List.getElem?_modify, hmodel]
      rfl
    refine ⟨_, hget', ?_⟩
    split
    · rw [hf.name, hname]
    · exact hname
  oneOff := by
    intro name model hentry
    rcases entryOf_modifyObject hf hentry with ⟨old, hold, ⟨_, heq⟩ | ⟨_, heq⟩⟩
    · rw [heq, hf.oneOff]
      exact h.oneOff name old hold
    · rw [heq]
      exact h.oneOff name old hold
  unique := by
    intro name model name' model' hentry hentry'
    rcases entryOf_modifyObject hf hentry with ⟨old, hold, _⟩
    rcases entryOf_modifyObject hf hentry' with ⟨old', hold', _⟩
    exact h.unique name old name' old' hold hold'
  heap := h.heap
  sent := h.sent

theorem Keyed.get_of_entryOf {old : TaskObject} {name' : Text} (h : Keyed id s)
    (hget : s.schedule.get name = some ref) (hobject : s.objects[ref]? = some model)
    (hid : model.id = id) (hentry : EntryOf s id name' old) :
    s.schedule.get name' = some ref ∧ old = model := by
  have hthis : EntryOf s id name model := ⟨Option.bind_eq_some_iff.mpr ⟨ref, hget, hobject⟩, hid⟩
  have hname := h.unique name' old name model hentry hthis
  rw [hname] at hentry ⊢
  exact ⟨hget, Option.some.inj (hentry.1.symm.trans hthis.1)⟩

theorem Tracked.disableEntry {f : TaskObject -> TaskObject} (h : Tracked id s) (hf : KeepsTask f)
    (hcount : forall model, (f model).record.totalRunCount = model.record.totalRunCount)
    (henabled : forall model, (f model).record.fields.enabled = false) :
    Tracked id (s.modifyObject ref f) where
  keyed := h.keyed.modifyObject hf ref
  once := h.once
  ran := by
    intro hrunning hsent
    rcases h.ran hrunning hsent with ⟨hcounted, hrows⟩
    constructor
    · intro name model hentry
      rcases entryOf_modifyObject hf hentry with ⟨old, hold, ⟨_, heq⟩ | ⟨_, heq⟩⟩
      · rw [heq, hcount]
        exact (hcounted name old hold).imp_right fun hrest => ⟨henabled old, hrest.2⟩
      · rw [heq]
        exact hcounted name old hold
    · cases hrows with
      | inl hrecorded => exact .inl hrecorded
      | inr hpending => exact .inr (hpending.modifyObject hf)

/-!
# Asking an entry and sending its task

A one-off task that has run is disabled, so it is not due again.
-/

theorem isDue_cases {look : Look} {due : Bool} {wait : Nat}
    (h : s.isDue ref look = some (s', due, wait)) :
    exists model, s.objects[ref]? = some model ∧
      ((s' = s ∧ (due = true -> model.record.fields.enabled = true ∧
          (model.record.fields.oneOff = true -> model.record.totalRunCount = 0))) ∨
        (due = false ∧ s' = { s.modifyObject ref ModelEntry.disabled with running := false }) ∨
        (due = false ∧ s' =
          (s.modifyObject ref ModelEntry.disabled).save (ModelEntry.disabled model) true)) := by
  unfold isDue at h
  split at h
  · cases h
  · rename_i model hobject
    refine ⟨model, hobject, ?_⟩
    split at h
    · cases h
      exact .inl ⟨rfl, nofun⟩
    · rename_i henabled
      split at h
      · cases h
        exact .inl ⟨rfl, nofun⟩
      · split at h
        · dsimp only at h
          split at h
          · cases h
            exact .inr (.inl ⟨rfl, rfl⟩)
          · cases h
            exact .inr (.inr ⟨rfl, rfl⟩)
        · rename_i hran
          have hsame := congrArg Prod.fst (Option.some.inj h)
          refine .inl ⟨hsame.symm, ?_⟩
          intro _
          constructor
          · simpa using henabled
          · intro honeOff
            rw [honeOff] at hran
            simpa using hran

theorem Ran.modifyOther {f : TaskObject -> TaskObject} (h : Ran id s) (hf : KeepsTask f)
    (hobject : s.objects[ref]? = some model) (hne : model.id ≠ id) :
    Ran id (s.modifyObject ref f) where
  counted := by
    intro name' model' hentry
    rcases entryOf_modifyObject hf hentry with ⟨old, hold, ⟨hget, _⟩ | ⟨_, heq⟩⟩
    · rcases entry_eq_some hold.1 with ⟨ref', hget', hobject'⟩
      rw [Option.some.inj (hget'.symm.trans hget), hobject] at hobject'
      rw [Option.some.inj hobject'] at hne
      exact absurd hold.2 hne
    · rw [heq]
      exact h.counted name' old hold
  rows := h.rows.imp_right (·.modifyObject hf)

theorem oneOff_written {withEnabled : Bool} {row : Row TaskRecord}
    (hrow : row ∈ s.rows.update [model.id] (ModelEntry.written model withEnabled))
    (h : Keyed id s) (hid : row.id = id) : row.value.fields.oneOff = true := by
  rcases mem_update hrow with ⟨hold, _⟩ | ⟨old, hold, _, _, heq⟩
  · exact h.rowOneOff row hold hid
  · rw [heq] at hid ⊢
    have honeOff := h.rowOneOff old hold hid
    unfold ModelEntry.written
    split
    · exact honeOff
    · exact honeOff

theorem Keyed.save {withEnabled : Bool} (h : Keyed id s) : Keyed id (s.save model withEnabled) := by
  have hids := Table.ids_update (t := s.rows) [model.id] (ModelEntry.written model withEnabled)
  apply h.of_rows
  · rw [hids]
    exact h.rowIds
  · exact fun row hrow hid => oneOff_written hrow h hid
  · rw [hids]
    exact fun hin => hin

theorem Tracked.disabled (h : Tracked id s) (hget : s.schedule.get name = some ref)
    (hobject : s.objects[ref]? = some model) :
    Tracked id
      ((s.modifyObject ref ModelEntry.disabled).save (ModelEntry.disabled model) true) where
  keyed := (h.keyed.modifyObject keepsTask_disabled ref).save
  once := h.once
  ran := by
    intro hrunning hsent
    by_cases hid : model.id = id
    · have hresting : Resting
          (s.rows.update [model.id] (ModelEntry.written (ModelEntry.disabled model) true)) id := by
        intro row' hrow' hrowId hlive
        rcases mem_update hrow' with ⟨_, hother⟩ | ⟨row, _, _, _, heq⟩
        · rw [hrowId, hid] at hother
          exact absurd ⟨hlive, List.mem_singleton.mpr rfl⟩ hother
        · rw [heq]
          rfl
      constructor
      · intro name' model' hentry
        have hentry : EntryOf (s.modifyObject ref ModelEntry.disabled) id name' model' := hentry
        rcases entryOf_modifyObject keepsTask_disabled hentry with ⟨old, hold, hcase⟩
        have hthere := (h.keyed.get_of_entryOf hget hobject hid hold).1
        rcases hcase with ⟨_, heq⟩ | ⟨hnot, _⟩
        · rw [heq]
          exact .inr ⟨rfl, hresting⟩
        · exact absurd hthere hnot
      · exact .inl hresting.recorded
    · have hran := (h.ran hrunning hsent).modifyOther keepsTask_disabled hobject hid
      apply hran.of_rows
      apply subsides_update
      intro hin
      exact absurd (List.mem_singleton.mp hin).symm hid

theorem Tracked.stopped (h : Tracked id s) :
    Tracked id { s.modifyObject ref ModelEntry.disabled with running := false } := by
  have hkeyed := h.keyed.modifyObject keepsTask_disabled ref
  exact
    { keyed := hkeyed.put _ _
      once := h.once
      ran := nofun }

theorem Tracked.isDue {look : Look} {due : Bool} {wait : Nat} (h : Tracked id s)
    (hget : s.schedule.get name = some ref) (hdue : s.isDue ref look = some (s', due, wait)) :
    Tracked id s' := by
  rcases isDue_cases hdue with ⟨model, hobject, ⟨rfl, _⟩ | ⟨_, rfl⟩ | ⟨_, rfl⟩⟩
  · exact h
  · exact h.stopped
  · exact h.disabled hget hobject

theorem Tracked.not_sent (h : Tracked id s) (hrunning : s.running = true)
    (hentry : EntryOf s id name model) (henabled : model.record.fields.enabled = true)
    (hfresh : model.record.fields.oneOff = true -> model.record.totalRunCount = 0) :
    id ∉ s.dispatched := by
  intro hsent
  cases (h.ran hrunning hsent).counted name model hentry with
  | inl hpos =>
      rw [hfresh (h.keyed.oneOff name model hentry).1] at hpos
      exact Nat.lt_irrefl 0 hpos
  | inr hrest =>
      rw [henabled] at hrest
      cases hrest.1

theorem Pending.mono (h : Pending s id)
    (hdirty : forall n, n ∈ s.dirty -> n ∈ s'.dirty) (hentry : s'.entry = s.entry) :
    Pending s' id := by
  rcases h with ⟨name, model, hin, hentryOf⟩
  unfold EntryOf at hentryOf
  rw [← hentry] at hentryOf
  exact ⟨name, model, hdirty name hin, hentryOf⟩

theorem Tracked.dispatch (h : Tracked id s) (hrunning : s.running = true)
    (hget : s.schedule.get name = some ref) (hobject : s.objects[ref]? = some model)
    (henabled : model.record.fields.enabled = true)
    (hfresh : model.record.fields.oneOff = true -> model.record.totalRunCount = 0)
    (hdispatch : s.dispatch ref now = some s') : Tracked id s' := by
  have hname : model.name = name := by
    rcases h.keyed.named name ref hget with ⟨model', hobject', hname⟩
    rw [hobject] at hobject'
    rw [Option.some.inj hobject']
    exact hname
  have hentry : s.entry name = some model := Option.bind_eq_some_iff.mpr ⟨ref, hget, hobject⟩
  unfold DatabaseScheduler.dispatch at hdispatch
  rw [hobject] at hdispatch
  cases hdispatch
  have hkeyed := h.keyed.modifyObject (keepsTask_next now) ref
  constructor
  · constructor
    · exact hkeyed.rowIds
    · exact hkeyed.rowOneOff
    · exact hkeyed.keys
    · exact hkeyed.named
    · exact hkeyed.oneOff
    · exact hkeyed.unique
    · exact hkeyed.heap
    · intro hsent
      cases List.mem_append.mp hsent with
      | inl hold => exact h.keyed.sent hold
      | inr hnew =>
          exact (h.keyed.oneOff name model ⟨hentry, (List.mem_singleton.mp hnew).symm⟩).2
  · by_cases hid : model.id = id
    · have hnot := h.not_sent hrunning ⟨hentry, hid⟩ henabled hfresh
      rw [List.count_append, List.count_eq_zero.mpr hnot, hid, List.count_singleton_self]
    · have hnone : id ∉ [model.id] := fun hin => hid (List.mem_singleton.mp hin).symm
      rw [List.count_append, List.count_eq_zero.mpr hnone]
      exact h.once
  · intro _ hsent
    by_cases hid : model.id = id
    · constructor
      · intro name' model' hentry'
        have hentry' : EntryOf (s.modifyObject ref (ModelEntry.next now)) id name' model' := hentry'
        rcases entryOf_modifyObject (keepsTask_next now) hentry' with ⟨old, hold, hcase⟩
        have hthere := (h.keyed.get_of_entryOf hget hobject hid hold).1
        rcases hcase with ⟨_, heq⟩ | ⟨hnot', _⟩
        · rw [heq]
          exact .inl (Nat.succ_pos _)
        · exact absurd hthere hnot'
      · have hentry' := entry_modifyObject (s := s) ref (ModelEntry.next now) name
        rw [hentry, Option.map_some, if_pos hget] at hentry'
        refine .inr ⟨name, _, ?_, hentry', hid⟩
        rw [hname]
        exact List.mem_append_right _ (List.mem_singleton.mpr rfl)
    · have hold : id ∈ s.dispatched := by
        cases List.mem_append.mp hsent with
        | inl hin => exact hin
        | inr hnew => exact absurd (List.mem_singleton.mp hnew).symm hid
      have hran := (h.ran hrunning hold).modifyOther (keepsTask_next now) hobject hid
      exact ⟨hran.counted, hran.rows.imp_right fun hpending =>
        hpending.mono (fun n hn => List.mem_append_left _ hn) rfl⟩

/-!
# Reading the schedule again

An entry that has been read is of a row that is enabled; if the run is in the row, the new
objects have it too.
-/

theorem fields_loaded (now : Nat) (row : Row TaskRecord) :
    (ModelEntry.loaded now row).record.fields = row.value.fields := by
  unfold ModelEntry.loaded
  dsimp only
  split
  · rfl
  · rfl

theorem totalRunCount_loaded (now : Nat) (row : Row TaskRecord) :
    (ModelEntry.loaded now row).record.totalRunCount = row.value.totalRunCount := by
  unfold ModelEntry.loaded
  dsimp only
  split
  · rfl
  · rfl

theorem get_load (h : (s.load now).schedule.get name = some ref) :
    exists row, row ∈ s.rows ∧ row.value.fields.enabled = true ∧ row.deleted = 0 ∧
      row.value.fields.name = name ∧
      (s.load now).objects[ref]? = some (ModelEntry.loaded now row) := by
  unfold load at h
  dsimp only at h
  rw [Dict.get_ofPairs] at h
  rcases Option.map_eq_some_iff.mp h with ⟨p, hlast, href⟩
  rcases List.mem_filter.mp (List.mem_of_getLast? hlast) with ⟨hp, hname⟩
  rcases List.mem_map.mp hp with ⟨⟨model, ref'⟩, hmodel, heq⟩
  rcases List.mem_zipIdx_iff_le_and_getElem?_sub.mp hmodel with ⟨hle, hget⟩
  rcases List.mem_map.mp (List.mem_of_getElem? hget) with ⟨row, hrow, hloaded⟩
  rcases List.mem_filter.mp hrow with ⟨hin, hselected⟩
  rcases (Bool.and_eq_true ..).mp hselected with ⟨henabled, hlive⟩
  refine ⟨row, hin, henabled, of_decide_eq_true hlive, ?_, ?_⟩
  · rw [← of_decide_eq_true hname, ← heq, ← hloaded, ← fields_loaded now row]
    rfl
  · rw [← href, ← heq, hloaded]
    unfold load
    dsimp only at hle hget ⊢
    rw [List.getElem?_append_right hle, hget]

theorem entry_load (h : (s.load now).entry name = some model) :
    exists row, row ∈ s.rows ∧ row.value.fields.enabled = true ∧ row.deleted = 0 ∧
      row.value.fields.name = name ∧ model = ModelEntry.loaded now row := by
  rcases entry_eq_some h with ⟨ref, hget, hobject⟩
  rcases get_load hget with ⟨row, hin, henabled, hlive, hname, hloaded⟩
  rw [hobject] at hloaded
  exact ⟨row, hin, henabled, hlive, hname, Option.some.inj hloaded⟩

theorem Keyed.load (h : Keyed id s) (now : Nat) : Keyed id (s.load now) where
  rowIds := h.rowIds
  rowOneOff := h.rowOneOff
  keys := Dict.nodup_keys_ofPairs _
  named := by
    intro name ref hget
    rcases get_load hget with ⟨row, _, _, _, hname, hobject⟩
    refine ⟨_, hobject, ?_⟩
    unfold TaskObject.name
    rw [fields_loaded]
    exact hname
  oneOff := by
    intro name model hentry
    rcases entry_load hentry.1 with ⟨row, hin, _, _, _, heq⟩
    have hid := hentry.2
    rw [heq] at hid ⊢
    have hrowId : row.id = id := hid
    constructor
    · rw [fields_loaded]
      exact h.rowOneOff row hin hrowId
    · exact hrowId ▸ List.mem_map_of_mem hin
  unique := by
    intro name model name' model' hentry hentry'
    rcases entry_load hentry.1 with ⟨row, hin, _, _, hname, heq⟩
    rcases entry_load hentry'.1 with ⟨row', hin', _, _, hname', heq'⟩
    have hid := hentry.2
    have hid' := hentry'.2
    rw [heq] at hid
    rw [heq'] at hid'
    have hrowId : row.id = row'.id := hid.trans hid'.symm
    rw [← hname, ← hname', List.inj_on_of_nodup_map h.rowIds hin hin' hrowId]
  heap := nofun
  sent := h.sent

theorem Ran.load (h : Recorded s.rows id) (now : Nat) : Ran id (s.load now) where
  counted := by
    intro name model hentry
    rcases entry_load hentry.1 with ⟨row, hin, henabled, hlive, _, heq⟩
    have hid := hentry.2
    rw [heq] at hid ⊢
    rw [totalRunCount_loaded]
    exact .inl (h row hin hid hlive henabled)
  rows := .inl h

/-!
# Saving

The run is in the row when it was there, or when the object of the task is saved.
-/

theorem Resting.save (h : Resting s.rows id) : Resting (s.save model false).rows id := by
  intro row' hrow' hid hlive
  rcases mem_update hrow' with ⟨hold, _⟩ | ⟨row, hrow, hrowLive, _, heq⟩
  · exact h row' hold hid hlive
  · rw [heq] at hid ⊢
    exact h row hrow hid hrowLive

theorem Recorded.save
    (hcount : model.id = id -> 0 < model.record.totalRunCount ∨ Resting s.rows id)
    (h : Recorded s.rows id ∨ model.id = id) : Recorded (s.save model false).rows id := by
  intro row' hrow' hid hlive henabled
  rcases mem_update hrow' with ⟨hold, hother⟩ | ⟨row, hrow, hrowLive, hin, heq⟩
  · have hne : model.id ≠ id := by
      intro heq
      rw [hid, heq] at hother
      exact hother ⟨hlive, List.mem_singleton.mpr rfl⟩
    exact (h.resolve_right hne) row' hold hid hlive henabled
  · rw [heq] at hid henabled ⊢
    have hmodel : model.id = id := (List.mem_singleton.mp hin).symm.trans hid
    cases hcount hmodel with
    | inl hpos => exact hpos
    | inr hresting =>
        have hdisabled := hresting row hrow hid hrowLive
        have hkept : row.value.fields.enabled = true := henabled
        rw [hdisabled] at hkept
        cases hkept

theorem Counted.of_entry (h : Counted s id) (hentry : s.entry name = some model)
    (hid : model.id = id) : 0 < model.record.totalRunCount ∨ Resting s.rows id :=
  (h name model ⟨hentry, hid⟩).imp_right And.right

theorem Ran.save (hcounted : Counted s id) (hentry : s.entry name = some model)
    (hrows : Recorded s.rows id ∨ Pending s id ∨ model.id = id) :
    Ran id (s.save model false) where
  counted := fun name' model' hentry' =>
    (hcounted name' model' hentry').imp_right fun hrest => hrest.imp_right (·.save)
  rows := by
    rcases hrows with hrecorded | hpending | hid
    · exact .inl (Recorded.save (hcounted.of_entry hentry) (.inl hrecorded))
    · exact .inr (hpending.mono (fun n hn => hn) rfl)
    · exact .inl (Recorded.save (hcounted.of_entry hentry) (.inr hid))

/-!
# Loops

What the turns of a loop keep, the loop keeps.  A loop without an exception writes the run of a
task before it reads the schedule.
-/

theorem syncLoop_invariant (I : DatabaseScheduler -> Prop)
    (hpop : forall {s name s₁}, s.pop name = some s₁ -> I s -> I s₁)
    (hsave : forall {s model}, I s -> I (s.save model false))
    (hretry : forall failed {s}, I s -> I (s.retry failed))
    (hload : forall now {s}, I s -> I (s.load now))
    (h : syncLoop script failed s = some (failed', s')) (hfirst : I s) : I s' := by
  have hconclude : forall {rest name outcome failed failed'} {s s' : DatabaseScheduler},
      (forall {failed failed' s s'}, syncLoop rest failed s = some (failed', s') -> I s -> I s') ->
      conclude (syncLoop rest) name outcome (rest = .done) failed s = some (failed', s') ->
      I s -> I s' := by
    intro rest name outcome failed failed' s s' hrest hconclude hs
    rcases conclude_cases hconclude with ⟨_, model, _, hloop⟩ | ⟨_, _, hloop⟩ | ⟨_, _, heq⟩
    · exact hrest hloop (hsave hs)
    · exact hrest hloop hs
    · have hsame : s' = s := congrArg Prod.snd heq
      rw [hsame]
      exact hs
  induction script generalizing failed failed' s s' with
  | done =>
      unfold syncLoop at h
      split at h
      · cases h
        exact hfirst
      · cases h
  | turn name outcome rest ih =>
      rcases syncLoop_turn h with ⟨s₁, hpopped, hend⟩
      exact hconclude ih hend (hpop hpopped hfirst)
  | reload name inner now outcome rest ihinner ih =>
      rcases syncLoop_reload h with ⟨s₁, innerFailed, s₂, s₃, hpopped, hinner, hs₃, hend⟩
      have hs₂ := hretry innerFailed (ihinner hinner (hpop hpopped hfirst))
      rcases hs₃ with heq | heq
      · exact hconclude ih hend (heq ▸ hs₂)
      · exact hconclude ih hend (heq ▸ hload now hs₂)

theorem keyed_syncLoop (h : syncLoop script failed s = some (failed', s')) (hkeyed : Keyed id s) :
    Keyed id s' := by
  apply syncLoop_invariant (Keyed id) _ _ _ _ h hkeyed
  · intro s name s₁ hpop hs
    rw [(pop_eq_some hpop).2]
    exact hs.put _ _
  · exact fun hs => hs.save
  · exact fun _ _ hs => hs.put _ _
  · exact fun now _ hs => hs.load now

theorem sends_nothing_syncLoop (h : syncLoop script failed s = some (failed', s')) :
    s'.dispatched = s.dispatched ∧ s'.running = s.running := by
  apply syncLoop_invariant (fun t => t.dispatched = s.dispatched ∧ t.running = s.running) _ _ _ _ h
    ⟨rfl, rfl⟩
  · intro s name s₁ hpop hs
    rw [(pop_eq_some hpop).2]
    exact hs
  · exact fun hs => hs
  · exact fun _ _ hs => hs
  · exact fun _ _ hs => hs

def Spares (id : Nat) (s : DatabaseScheduler) (script : Script) : Prop :=
  forall name, name ∈ script.reloaded -> forall model, s.entry name = some model -> model.id ≠ id

theorem Pending.pop (h : Pending s id) (hpop : s.pop name = some s₁) :
    Pending s₁ id ∨ exists model, EntryOf s₁ id name model := by
  have hentries : s₁.entry = s.entry := by
    rw [(pop_eq_some hpop).2]
    rfl
  rcases h with ⟨n, model, hdirty, hentry⟩
  unfold EntryOf at hentry
  rw [← hentries] at hentry
  by_cases heq : n = name
  · rw [heq] at hentry
    exact .inr ⟨model, hentry⟩
  · exact .inl ⟨n, model, (mem_dirty_pop hpop).mpr ⟨hdirty, heq⟩, hentry⟩

theorem ran_conclude {rest : Script} {outcome : Outcome} (houtcome : outcome.raises = false)
    (hrest : forall {failed failed' s s'}, syncLoop rest failed s = some (failed', s') ->
      Ran id s -> Recorded s.rows id ∨ Spares id s rest -> Ran id s')
    (hcounted : Counted s id)
    (hrows : Recorded s.rows id ∨ Pending s id ∨ exists model, EntryOf s id name model)
    (hspares : Recorded s.rows id ∨ Spares id s rest)
    (h : conclude (syncLoop rest) name outcome (rest = .done) failed s = some (failed', s')) :
    Ran id s' := by
  rcases conclude_cases h with ⟨_, model, hentry, hloop⟩ | ⟨_, hnone, hloop⟩ | ⟨hraises, _, _⟩
  · apply hrest hloop
    · apply Ran.save hcounted hentry
      refine hrows.imp_right (Or.imp_right ?_)
      intro hthis
      rcases hthis with ⟨model', hentry', hid⟩
      rw [hentry] at hentry'
      rw [Option.some.inj hentry']
      exact hid
    · exact hspares.imp_left fun hrecorded =>
        Recorded.save (hcounted.of_entry hentry) (.inl hrecorded)
  · apply hrest hloop _ hspares
    refine ⟨hcounted, hrows.imp_right fun hor => hor.resolve_right ?_⟩
    intro hthis
    rcases hthis with ⟨model', hentry', _⟩
    rw [hnone] at hentry'
    cases hentry'
  · rw [houtcome] at hraises
    cases hraises

/-- A loop without an exception writes the run of a task before it reads the schedule. -/
theorem ran_syncLoop (h : syncLoop script failed s = some (failed', s'))
    (hraises : script.raises = false) (hran : Ran id s)
    (hspares : Recorded s.rows id ∨ Spares id s script) : Ran id s' := by
  induction script generalizing failed failed' s s' with
  | done =>
      unfold syncLoop at h
      split at h
      · cases h
        exact hran
      · cases h
  | turn name outcome rest ih =>
      rcases (Bool.or_eq_false_iff ..).mp hraises with ⟨houtcome, hrest⟩
      rcases syncLoop_turn h with ⟨s₁, hpop, hconclude⟩
      have hs₁ := (pop_eq_some hpop).2
      apply ran_conclude houtcome (fun hloop => ih hloop hrest) _ _ _ hconclude
      · rw [hs₁]
        exact hran.counted
      · cases hran.rows with
        | inl hrecorded =>
            rw [hs₁]
            exact .inl hrecorded
        | inr hpending => exact .inr (hpending.pop hpop)
      · rw [hs₁]
        exact hspares
  | reload name inner now outcome rest ihinner ih =>
      rcases (Bool.or_eq_false_iff ..).mp hraises with ⟨hboth, hrest⟩
      rcases (Bool.or_eq_false_iff ..).mp hboth with ⟨hinnerRaises, houtcome⟩
      rcases syncLoop_reload h with ⟨s₁, innerFailed, s₂, s₃, hpop, hinner, hs₃, hconclude⟩
      have hs₁ := (pop_eq_some hpop).2
      have hentries : s₁.entry = s.entry := by
        rw [hs₁]
        rfl
      have hran₁ : Ran id s₁ := by
        constructor
        · rw [hs₁]
          exact hran.counted
        · cases hran.rows with
          | inl hrecorded =>
              rw [hs₁]
              exact .inl hrecorded
          | inr hpending =>
              rcases hpending.pop hpop with hpending₁ | ⟨model, hentry, hid⟩
              · exact .inr hpending₁
              · rw [hentries] at hentry
                cases hspares with
                | inl hrecorded =>
                    rw [hs₁]
                    exact .inl hrecorded
                | inr hspares =>
                    exact absurd hid (hspares name (.head _) model hentry)
      have hran₂ : Ran id s₂ := by
        apply ihinner hinner hinnerRaises hran₁
        rw [hs₁]
        exact hspares.imp_right fun hall n hn model hentry =>
          hall n (.tail _ (List.mem_append_left _ hn)) model hentry
      -- the sync inside leaves no name, so the run of the task is in its row
      have hrecorded : Recorded s₂.rows id :=
        hran₂.recorded (treated_syncLoop hinner hinnerRaises).none_left
      have hran₃ : Ran id s₃ ∧ Recorded s₃.rows id := by
        have hretried : Recorded (s₂.retry innerFailed).rows id := hrecorded
        rcases hs₃ with heq | heq
        · rw [heq]
          exact ⟨⟨hran₂.counted, .inl hrecorded⟩, hrecorded⟩
        · rw [heq]
          exact ⟨Ran.load hretried now, hrecorded⟩
      exact ran_conclude houtcome (fun hloop => ih hloop hrest) hran₃.1.counted
        (.inl hran₃.2) (.inl hran₃.2) hconclude

/-!
# Steps

Each step keeps the invariant, if it spares the task and leaves it alone.
-/

def keepsOneOff (obj : TaskSchedulerParam) : Bool :=
  obj.optional.all fun
    | .oneOff false => false
    | _ => true

/-- Nobody enables the task again, and it stays one-off. -/
def LeftAlone (id : Nat) : BeatAction -> Prop
  | .create newId obj => newId = id -> obj.toModel.oneOff = true
  | .update pk obj => pk = id -> keepsOneOff obj = true
  | .setStatus pk status => pk = id -> status = false
  | _ => True

/--
No save and no reading of the schedule by a sync raises, and no sync reads the schedule again
between the name of the task and its save.
-/
def Sparing (id : Nat) (s : DatabaseScheduler) : BeatAction -> Prop
  | .sync script => script.raises = false ∧ Spares id s script
  | .access script _ _ => script.raises = false ∧ Spares id s script
  | _ => True

theorem assign_keeps {obj : TaskSchedulerParam} (h : keepsOneOff obj = true)
    (fields : TaskScheduler) : (fields.assign obj.dumpSet).enabled = fields.enabled ∧
      (fields.oneOff = true -> (fields.assign obj.dumpSet).oneOff = true) := by
  have hfold : forall (assignments : List Assignment) (fields : TaskScheduler),
      (forall a, a ∈ assignments -> forall m : TaskScheduler, (m.setattr a).enabled = m.enabled ∧
        (m.oneOff = true -> (m.setattr a).oneOff = true)) ->
      (fields.assign assignments).enabled = fields.enabled ∧
        (fields.oneOff = true -> (fields.assign assignments).oneOff = true) := by
    intro assignments
    induction assignments with
    | nil => exact fun fields _ => ⟨rfl, fun honeOff => honeOff⟩
    | cons a rest ih =>
        intro fields hall
        have hfirst := hall a (.head _) fields
        have hrest := ih (fields.setattr a) fun b hb => hall b (.tail _ hb)
        exact ⟨hrest.1.trans hfirst.1, fun honeOff => hrest.2 (hfirst.2 honeOff)⟩
  apply hfold
  intro a ha m
  cases List.mem_append.mp ha with
  | inl hbase =>
      simp only [List.mem_cons, List.not_mem_nil, or_false] at hbase
      rcases hbase with rfl | rfl | rfl
      · exact ⟨rfl, fun honeOff => honeOff⟩
      · exact ⟨rfl, fun honeOff => honeOff⟩
      · exact ⟨rfl, fun honeOff => honeOff⟩
  | inr hoptional =>
      rcases List.mem_map.mp hoptional with ⟨field, hfield, rfl⟩
      have hkeeps := List.all_eq_true.mp h field hfield
      cases field with
      | oneOff value =>
          cases value with
          | false => cases hkeeps
          | true => exact ⟨rfl, fun _ => rfl⟩
      | _ => exact ⟨rfl, fun honeOff => honeOff⟩

theorem Tracked.tick {look : Look} (h : Tracked id s) (hrunning : s.running = true)
    (href : ref ∈ s.heap) (htick : s.tick ref look = some s') : Tracked id s' := by
  rcases h.keyed.heap ref href with ⟨name, hget⟩
  unfold DatabaseScheduler.tick at htick
  split at htick
  · cases htick
  · rename_i s₁ wait hdue
    rcases isDue_cases hdue with ⟨model, hobject, ⟨rfl, hready⟩ | ⟨hno, _⟩ | ⟨hno, _⟩⟩
    · exact h.dispatch hrunning hget hobject (hready rfl).1 (hready rfl).2 htick
    · cases hno
    · cases hno
  · rename_i s₁ wait hdue
    rw [← Option.some.inj htick]
    exact h.isDue hget hdue

theorem Tracked.sync (h : Tracked id s) (hraises : script.raises = false)
    (hspares : Spares id s script) (hsync : s.sync script = some s') :
    Tracked id s' ∧ (s'.running = true -> id ∈ s'.dispatched -> Recorded s'.rows id) := by
  unfold DatabaseScheduler.sync at hsync
  rcases Option.map_eq_some_iff.mp hsync with ⟨⟨failed, last⟩, hloop, heq⟩
  rw [← heq]
  have hkeyed := keyed_syncLoop hloop h.keyed
  rcases sends_nothing_syncLoop hloop with ⟨hdispatched, hstays⟩
  have hran : last.running = true -> id ∈ last.dispatched -> Ran id last := by
    intro hrunning hsent
    rw [hstays] at hrunning
    rw [hdispatched] at hsent
    exact ran_syncLoop hloop hraises (h.ran hrunning hsent) (.inr hspares)
  have hrecorded : last.running = true -> id ∈ last.dispatched -> Recorded last.rows id :=
    fun hrunning hsent =>
      (hran hrunning hsent).recorded (treated_syncLoop hloop hraises).none_left
  refine ⟨⟨hkeyed.put _ _, ?_, ?_⟩, hrecorded⟩
  · have hcount : last.dispatched.count id ≤ 1 := by
      rw [hdispatched]
      exact h.once
    exact hcount
  · exact fun hrunning hsent =>
      ⟨(hran hrunning hsent).counted, .inl (hrecorded hrunning hsent)⟩

theorem Tracked.access {readRaises : Option StoreError} (h : Tracked id s)
    (hraises : script.raises = false) (hspares : Spares id s script)
    (haccess : s.access script now readRaises = some s') : Tracked id s' := by
  unfold DatabaseScheduler.access at haccess
  rcases Option.map_eq_some_iff.mp haccess with ⟨s₁, hsync, heq⟩
  rcases h.sync hraises hspares hsync with ⟨htracked, hrecorded⟩
  rw [← heq]
  split
  · exact
      { keyed := htracked.keyed.put _ _
        once := htracked.once
        ran := nofun }
  · exact
      { keyed := htracked.keyed.load now
        once := htracked.once
        ran := fun hrunning hsent => Ran.load (hrecorded hrunning hsent) now }

/-- Each step keeps the invariant, if it spares the task and leaves it alone. -/
theorem Tracked.step {a : BeatAction} (h : Tracked id s) (halone : LeftAlone id a)
    (hsparing : Sparing id s a) (hstep : s.step a = some s') : Tracked id s' := by
  cases a with
  | create newId obj =>
      dsimp only [DatabaseScheduler.step] at hstep
      split at hstep
      · cases hstep
      · rename_i hnew
        cases hstep
        exact h.create hnew halone
  | update pk obj =>
      cases hstep
      apply h.update
      · intro hin record
        have hkeeps := assign_keeps (halone (List.mem_singleton.mp hin).symm) record.fields
        exact ⟨rfl, fun henabled => hkeeps.1.symm.trans henabled⟩
      · intro hin record honeOff
        exact (assign_keeps (halone (List.mem_singleton.mp hin).symm) record.fields).2 honeOff
  | setStatus pk status =>
      cases hstep
      apply h.update
      · intro hin record
        have hoff := halone (List.mem_singleton.mp hin).symm
        rw [hoff]
        exact ⟨rfl, nofun⟩
      · exact fun _ _ honeOff => honeOff
  | delete pk =>
      cases hstep
      exact h.delete
  | disableEntry ref =>
      cases hstep
      exact h.disableEntry ⟨fun _ => rfl, fun _ => rfl, fun _ => rfl⟩ (fun _ => rfl) fun _ => rfl
  | disableRow pk =>
      cases hstep
      exact h.update (fun _ _ => ⟨rfl, nofun⟩) fun _ _ honeOff => honeOff
  | populate =>
      dsimp only [DatabaseScheduler.step] at hstep
      split at hstep
      · cases hstep
        have hkeyed := h.keyed
        refine ⟨⟨hkeyed.rowIds, hkeyed.rowOneOff, hkeyed.keys, hkeyed.named, hkeyed.oneOff,
          hkeyed.unique, ?_, hkeyed.sent⟩, h.once,
          fun hrunning hsent => ⟨(h.ran hrunning hsent).counted, (h.ran hrunning hsent).rows⟩⟩
        intro ref href
        rcases List.mem_map.mp href with ⟨⟨name, ref'⟩, hmem, heq⟩
        rw [← heq]
        exact ⟨name, Dict.get_eq_some_of_mem hkeyed.keys hmem⟩
      · cases hstep
  | check name look =>
      dsimp only [DatabaseScheduler.step] at hstep
      split at hstep
      · rcases Option.bind_eq_some_iff.mp hstep with ⟨ref, hget, hdue⟩
        rcases Option.map_eq_some_iff.mp hdue with ⟨⟨s₁, due, wait⟩, hdue, heq⟩
        rw [← heq]
        exact h.isDue hget hdue
      · cases hstep
  | tick ref look =>
      dsimp only [DatabaseScheduler.step] at hstep
      split at hstep
      · rename_i hboth
        exact h.tick hboth.1 hboth.2 hstep
      · cases hstep
  | sync script => exact (h.sync hsparing.1 hsparing.2 hstep).1
  | access script now readRaises =>
      dsimp only [DatabaseScheduler.step] at hstep
      split at hstep
      · exact h.access hsparing.1 hsparing.2 hstep
      · cases hstep

end

/-!
# Runs

A one-off task that is enabled and due at once.
-/

/-- A process whose schedule has been set up and that has sent nothing. -/
structure Started (id : Nat) (s : DatabaseScheduler) : Prop extends Keyed id s where
  unsent : s.dispatched = []

def started (rows : Table TaskRecord) (now : Nat) : DatabaseScheduler :=
  load ⟨rows, [], [], [], [], [], true⟩ now

theorem started_read {rows : Table TaskRecord} {id : Nat} (hids : rows.ids.Nodup)
    (honeOff : forall row, row ∈ rows -> row.id = id -> row.value.fields.oneOff = true)
    (now : Nat) : Started id (started rows now) := by
  have hkeyed : Keyed id ⟨rows, [], [], [], [], [], true⟩ :=
    { rowIds := hids
      rowOneOff := honeOff
      keys := .nil
      named := nofun
      oneOff := fun _ _ hentry => nomatch hentry.1
      unique := fun _ _ _ _ hentry _ => nomatch hentry.1
      heap := nofun
      sent := nofun }
  exact ⟨hkeyed.load now, rfl⟩

/--
A sync keeps the names that it has not saved exactly when nothing raises.  A one-off task is sent
at most once in a run in which no sync raises, nor reads the schedule again between popping the
name of the task and saving it.
-/
theorem runRecords_kept (s : DatabaseScheduler) :
    (forall (script : Script) (s' : DatabaseScheduler), s.sync script = some s' ->
      ((forall n, n ∈ s.dirty -> n ∉ script.saved -> n ∈ s'.dirty) ↔ script.raises = false)) ∧
    (forall (id : Nat) (last : DatabaseScheduler), Started id s ->
      Transitions.Reaches DatabaseScheduler.step (fun s a => LeftAlone id a ∧ Sparing id s a)
        s last ->
      last.dispatched.count id ≤ 1) := by
  constructor
  · exact fun script s' h => sync_keeps_iff h
  · intro id last hstarted hrun
    have hfirst : Tracked id s := by
      refine ⟨hstarted.toKeyed, ?_, ?_⟩
      · rw [hstarted.unsent]
        exact Nat.zero_le 1
      · intro _ hsent
        rw [hstarted.unsent] at hsent
        cases hsent
    have hlast := hrun.invariant (Tracked id) hfirst fun htracked hcond hstep =>
      htracked.step hcond.1 hcond.2 hstep
    exact hlast.once

instance decidableLeftAlone (id : Nat) (a : BeatAction) : Decidable (LeftAlone id a) := by
  cases a with
  | create newId obj => exact inferInstanceAs (Decidable (newId = id -> obj.toModel.oneOff = true))
  | update pk obj => exact inferInstanceAs (Decidable (pk = id -> keepsOneOff obj = true))
  | setStatus pk status => exact inferInstanceAs (Decidable (pk = id -> status = false))
  | _ => exact .isTrue trivial

instance decidableSpares (id : Nat) (s : DatabaseScheduler) (script : Script) :
    Decidable (Spares id s script) :=
  decidable_of_iff (script.reloaded.all fun name => (s.entry name).all (·.id ≠ id)) <| by
    simp [Spares, Option.all_eq_true]

instance decidableSparing (id : Nat) (s : DatabaseScheduler) (a : BeatAction) :
    Decidable (Sparing id s a) := by
  cases a with
  | sync script => exact inferInstanceAs (Decidable (script.raises = false ∧ Spares id s script))
  | access script _ _ =>
      exact inferInstanceAs (Decidable (script.raises = false ∧ Spares id s script))
  | _ => exact .isTrue trivial

def cleanup : Row TaskRecord where
  id := 1
  deleted := 0
  value :=
    { fields :=
        { TaskSchedulerParam.toModel ⟨"cleanup".toList, "tasks.cleanup".toList, .crontab, []⟩ with
          oneOff := true }
      lastRunTime := none
      totalRunCount := 0 }

def due : Look := ⟨10, (true, 60), none⟩

theorem started_cleanup : Started 1 (started [cleanup] 5) := by
  apply started_read
  · exact List.nodup_singleton 1
  · intro row hrow _
    rw [List.mem_singleton.mp hrow]
    rfl

theorem runRecords_kept_cleanup :
    ¬ (forall n, n ∈ ["cleanup".toList] -> n ∉ ([] : List Text) -> n ∈ ([] : List Text)) ∧
    exists last,
      Transitions.Reaches DatabaseScheduler.step (fun s a => LeftAlone 1 a ∧ Sparing 1 s a)
        (started [cleanup] 5) last ∧
      last.dispatched = [1] ∧ last.dispatched.count 1 ≤ 1 := by
  constructor
  · have hsync := (runRecords_kept { started [cleanup] 5 with dirty := ["cleanup".toList] }).1
      (.turn "cleanup".toList (.saveRaises .database) .done) (started [cleanup] 5) (by decide)
    intro hkeeps
    exact Bool.false_ne_true (hsync.mp hkeeps).symm
  · rcases Transitions.exists_reaches DatabaseScheduler.step
        (fun s a => LeftAlone 1 a ∧ Sparing 1 s a) (started [cleanup] 5)
        [.populate, .tick 0 due, .sync (.turn "cleanup".toList .saved .done),
          .access .done 20 none, .populate, .tick 1 due] (fun last => last.dispatched = [1])
        (by decide) with ⟨last, hrun, hsent⟩
    exact ⟨last, hrun, hsent, (runRecords_kept _).2 1 last started_cleanup hrun⟩

/-- The save raises, and the schedule is read again. -/
theorem runRecords_lost :
    (((started [cleanup] 5).dispatch 0 10).bind fun s =>
        s.sync (.turn "cleanup".toList (.saveRaises .database) .done)).any (fun s =>
      s.dirty = [] ∧ (s.rows.get 1).any fun row => row.value.totalRunCount = 0) = true ∧
    exists last,
      Transitions.Reaches DatabaseScheduler.step (fun _ a => LeftAlone 1 a)
        (started [cleanup] 5) last ∧ last.dispatched.count 1 = 2 := by
  refine ⟨by decide, ?_⟩
  apply Transitions.exists_reaches DatabaseScheduler.step _ _
    [.populate, .tick 0 due, .sync (.turn "cleanup".toList (.saveRaises .database) .done),
      .access .done 20 none, .populate, .tick 1 due]
  decide

end RunRecords
end RagService
