import RagService.Scheduler.Model

/-!
# The run records of Beat

`DatabaseScheduler` with the objects that its entries share, the names whose run records are
to be saved, and the rows of `task_scheduler`.  Celery's part is left open: which entry of the
heap is looked at next, and what its schedule says.
-/

namespace RagService
namespace RunRecords

structure TaskRecord where
  fields : TaskScheduler
  lastRunTime : Option Nat
  totalRunCount : Nat
  deriving DecidableEq

/-- An object in memory; `no_changes` is no column, it says whether a save stamps a change. -/
structure TaskObject where
  id : Nat
  record : TaskRecord
  noChanges : Bool
  deriving DecidableEq

def TaskObject.name (model : TaskObject) : Text :=
  model.record.fields.name

/-- `DatabaseError` and `InterfaceError` -/
inductive StoreError where
  | database
  | interface
  deriving DecidableEq

/-- An entry refers to its object by the place at which it was made. -/
structure DatabaseScheduler where
  rows : Table TaskRecord
  objects : List TaskObject
  schedule : Dict Text Nat
  heap : List Nat
  dirty : List Text
  /-- the ids of the tasks that have been sent, one for each time -/
  dispatched : List Nat
  /-- no exception has left `tick`, which would end the loop of the service -/
  running : Bool
  deriving DecidableEq

namespace ModelEntry

def year : Nat :=
  365 * PeriodType.days.length.toNat

/-- `__init__`: a row without a last run gets one. -/
def loaded (now : Nat) (row : Row TaskRecord) : TaskObject where
  id := row.id
  record :=
    match row.value.lastRunTime with
    | some _ => row.value
    | none =>
        { row.value with
          lastRunTime :=
            match row.value.fields.startTime with
            | some startTime => some (startTime - year)
            | none => some now }
  noChanges := false

def next (now : Nat) (model : TaskObject) : TaskObject :=
  { model with
    record :=
      { model.record with
        lastRunTime := some now
        totalRunCount := model.record.totalRunCount + 1 }
    noChanges := true }

def disabled (model : TaskObject) : TaskObject :=
  { model with
    record :=
      { model.record with
        fields := { model.record.fields with enabled := false }
        totalRunCount := 0 }
    noChanges := false }

/-- What `save` writes to the row, with `enabled` among the other fields or not. -/
def written (model : TaskObject) (withEnabled : Bool) (record : TaskRecord) : TaskRecord where
  fields :=
    if withEnabled then { record.fields with enabled := model.record.fields.enabled }
    else record.fields
  lastRunTime := model.record.lastRunTime
  totalRunCount := model.record.totalRunCount

end ModelEntry

namespace DatabaseScheduler

/-!
# Entries

The entries of the schedule, the question whether one is due, and the sending of its task.
-/

/-- `self._schedule.get(name)` -/
def entry (s : DatabaseScheduler) (name : Text) : Option TaskObject :=
  (s.schedule.get name).bind fun ref => s.objects[ref]?

def modifyObject (s : DatabaseScheduler) (ref : Nat) (f : TaskObject -> TaskObject) :
    DatabaseScheduler :=
  { s with objects := s.objects.modify ref f }

def save (s : DatabaseScheduler) (model : TaskObject) (withEnabled : Bool) : DatabaseScheduler :=
  { s with rows := s.rows.update [model.id] (ModelEntry.written model withEnabled) }

/-- What decides an answer of `is_due`: the time, the schedule, and whether a save raises. -/
structure Look where
  now : Nat
  schedule : Bool × Nat
  saveRaises : Option StoreError

def isDue (s : DatabaseScheduler) (ref : Nat) (look : Look) :
    Option (DatabaseScheduler × Bool × Nat) :=
  match s.objects[ref]? with
  | none => none
  | some model =>
      if !model.record.fields.enabled then some (s, false, 5)
      else if model.record.fields.startTime.any (look.now < ·) then
        some (s, false, model.record.fields.startTime.getD 0 - look.now)
      else if model.record.fields.oneOff && 0 < model.record.totalRunCount then
        let s := s.modifyObject ref ModelEntry.disabled
        match look.saveRaises with
        | some _ => some ({ s with running := false }, false, 0)
        | none => some (s.save (ModelEntry.disabled model) true, false, 1000000000)
      else some (s, look.schedule)

/-- `reserve`, and the task is sent. -/
def dispatch (s : DatabaseScheduler) (ref : Nat) (now : Nat) : Option DatabaseScheduler :=
  match s.objects[ref]? with
  | none => none
  | some model =>
      some
        { s.modifyObject ref (ModelEntry.next now) with
          dirty := s.dirty ++ [model.name]
          dispatched := s.dispatched ++ [model.id] }

/-!
# Reading the schedule

`get_all_task_schedulers` selects the enabled rows, and Beat makes a new heap.
-/

def enabledTasks (rows : Table TaskRecord) : List (Row TaskRecord) :=
  rows.filter fun row => row.value.fields.enabled && row.deleted = 0

/-- `get_all_task_schedulers`, and a new heap -/
def load (s : DatabaseScheduler) (now : Nat) : DatabaseScheduler :=
  let models := (enabledTasks s.rows).map (ModelEntry.loaded now)
  { s with
    objects := s.objects ++ models
    schedule := Dict.ofPairs ((models.zipIdx s.objects.length).map fun (model, ref) =>
      (model.name, ref))
    heap := [] }

/-!
# Sync

The loop of `sync` pops one dirty name after another and saves the record of its object.  The
schedule may have to be read again in between, and then there is a sync inside.
-/

inductive Outcome where
  | saved
  /-- the `KeyError` of a name without an entry -/
  | missing
  | saveRaises (e : StoreError)
  /-- the schedule could not be read again -/
  | readRaises (e : StoreError)
  deriving DecidableEq

def Outcome.raises : Outcome -> Bool
  | saved => false
  | missing => false
  | saveRaises _ => true
  | readRaises _ => true

/--
The turns of the loop in `sync`: which name is popped, whether the schedule has changed, in which
case there is a sync inside, and what becomes of the name.
-/
inductive Script where
  | done
  | turn (name : Text) (outcome : Outcome) (rest : Script)
  | reload (name : Text) (inner : Script) (now : Nat) (outcome : Outcome) (rest : Script)
  deriving DecidableEq

namespace Script

def saved : Script -> List Text
  | done => []
  | turn name outcome rest => if outcome = .saved then name :: rest.saved else rest.saved
  | reload name inner _ outcome rest =>
      inner.saved ++ if outcome = .saved then name :: rest.saved else rest.saved

def raises : Script -> Bool
  | done => false
  | turn _ outcome rest => outcome.raises || rest.raises
  | reload _ inner _ outcome rest => inner.raises || outcome.raises || rest.raises

def reloaded : Script -> List Text
  | done => []
  | turn _ _ rest => rest.reloaded
  | reload name inner _ _ rest => name :: (inner.reloaded ++ rest.reloaded)

end Script

def pop (s : DatabaseScheduler) (name : Text) : Option DatabaseScheduler :=
  if name ∈ s.dirty then some { s with dirty := s.dirty.filter (· ≠ name) } else none

/-- `self._dirty |= failed` -/
def retry (s : DatabaseScheduler) (failed : List Text) : DatabaseScheduler :=
  { s with dirty := s.dirty ++ failed }

def conclude (loop : List Text -> DatabaseScheduler -> Option (List Text × DatabaseScheduler))
    (name : Text) (outcome : Outcome) (last : Bool) (failed : List Text) (s : DatabaseScheduler) :
    Option (List Text × DatabaseScheduler) :=
  match outcome, s.entry name with
  | .saved, some model => loop failed (s.save model false)
  | .missing, none => loop (failed ++ [name]) s
  | .saveRaises _, some _ => if last then some (failed, s) else none
  | .readRaises _, _ => if last then some (failed, s) else none
  | _, _ => none

/-- The loop of `sync`, with the names that have failed; a script that cannot be gives none. -/
def syncLoop : Script -> List Text -> DatabaseScheduler -> Option (List Text × DatabaseScheduler)
  | .done, failed, s => if s.dirty = [] then some (failed, s) else none
  | .turn name outcome rest, failed, s =>
      match s.pop name with
      | none => none
      | some s =>
          match outcome with
          | .readRaises _ => none
          | _ => conclude (syncLoop rest) name outcome (rest = .done) failed s
  | .reload name inner now outcome rest, failed, s =>
      match s.pop name with
      | none => none
      | some s =>
          match syncLoop inner [] s with
          | none => none
          | some (innerFailed, s) =>
              let s := s.retry innerFailed
              match outcome with
              | .readRaises _ => conclude (syncLoop rest) name outcome (rest = .done) failed s
              | _ => conclude (syncLoop rest) name outcome (rest = .done) failed (s.load now)

def sync (script : Script) (s : DatabaseScheduler) : Option DatabaseScheduler :=
  (syncLoop script [] s).map fun (failed, s) => s.retry failed

/-!
# Steps

What Beat does, and the requests on the rows in between.
-/

inductive BeatAction where
  /-- requests of administrators -/
  | create (newId : Nat) (obj : TaskSchedulerParam)
  | update (pk : Nat) (obj : TaskSchedulerParam)
  | setStatus (pk : Nat) (status : Bool)
  | delete (pk : Nat)
  /-- `_disable` for an entry without a schedule, in memory and then in the row -/
  | disableEntry (ref : Nat)
  | disableRow (pk : Nat)
  /-- the heap is filled from the schedule -/
  | populate
  /-- an entry is asked whether it is due -/
  | check (name : Text) (look : Look)
  /-- `tick` with this entry on top of the heap -/
  | tick (ref : Nat) (look : Look)
  | sync (script : Script)
  /-- the schedule has changed; the reading may raise -/
  | access (script : Script) (now : Nat) (readRaises : Option StoreError)

def updateFields (s : DatabaseScheduler) (pk : Nat) (f : TaskScheduler -> TaskScheduler) :
    DatabaseScheduler :=
  { s with rows := s.rows.update [pk] fun record => { record with fields := f record.fields } }

def tick (s : DatabaseScheduler) (ref : Nat) (look : Look) : Option DatabaseScheduler :=
  match s.isDue ref look with
  | none => none
  | some (s, true, _) => s.dispatch ref look.now
  | some (s, false, _) => some s

/-- The property `schedule` when it has changed. -/
def access (s : DatabaseScheduler) (script : Script) (now : Nat) (readRaises : Option StoreError) :
    Option DatabaseScheduler :=
  (s.sync script).map fun s =>
    match readRaises with
    | some _ => { s with running := false }
    | none => s.load now

def step (s : DatabaseScheduler) : BeatAction -> Option DatabaseScheduler
  | .create newId obj =>
      if newId ∈ s.rows.ids then none
      else some { s with rows := s.rows.create newId ⟨obj.toModel, none, 0⟩ }
  | .update pk obj => some (s.updateFields pk fun fields => fields.assign obj.dumpSet)
  | .setStatus pk status => some (s.updateFields pk fun fields => { fields with enabled := status })
  | .delete pk => some { s with rows := s.rows.delete [pk] }
  | .disableEntry ref =>
      some (s.modifyObject ref fun model =>
        { model with
          record :=
            { model.record with fields := { model.record.fields with enabled := false } }
          noChanges := true })
  | .disableRow pk => some (s.updateFields pk fun fields => { fields with enabled := false })
  | .populate => if s.running then some { s with heap := s.schedule.values } else none
  | .check name look =>
      if s.running then
        (s.schedule.get name).bind fun ref => (s.isDue ref look).map Prod.fst
      else none
  | .tick ref look => if s.running ∧ ref ∈ s.heap then s.tick ref look else none
  | .sync script => s.sync script
  | .access script now readRaises => if s.running then s.access script now readRaises else none

end DatabaseScheduler

end RunRecords
end RagService
