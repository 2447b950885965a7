import RagService.Foundation.Calls
import RagService.Scheduler.Model

/-!
# Beat

`TaskSchedulerService`, whose calls run in transactions of their own, the mapper events of
`TaskScheduler`, and `DatabaseScheduler.schedule`, interleaved at their commands.
-/

namespace RagService

open Admin Interleaving

/-!
# State

The rows, the transactions in flight, Redis, and the attributes of the `DatabaseScheduler` with
a history of its reads since the enabled rows changed.
-/

inductive Change where
  | insert (m : TaskScheduler)
  | update (assignments : List Assignment)
  | delete

/-- The row that is locked until the commit, and the name that the unique constraint gains. -/
structure Write where
  id : Nat
  change : Change
  claim : Option Text

def Write.apply (w : Write) (rows : Table TaskScheduler) : Table TaskScheduler :=
  match w.change with
  | .insert m => rows.create w.id m
  | .update assignments =>
      rows.map fun row =>
        if row.id = w.id then { row with value := row.value.assign assignments } else row
  | .delete => rows.delete [w.id]

structure Beat where
  initialRead : Bool
  lastUpdate : Option Nat
  schedule : Option Entries

structure ReadHistory where
  /-- the entries have not been made of the rows as they are now -/
  missed : Bool
  /-- the reads that have come and gone -/
  reads : Nat
  /-- the read that is under way has begun since -/
  since : Bool

structure SchedulerState where
  clock : Nat
  rows : Table TaskScheduler
  nextId : Nat
  inFlight : List Write
  /-- the value of `last_update` in Redis -/
  lastUpdate : Option Nat
  /-- the tasks of `update_changed_async` that have been created -/
  updates : Nat
  /-- the tasks of `_disable` that have been created, by their rows -/
  disables : List Nat
  beat : Beat
  /-- Beat reads the schedule -/
  reading : Bool
  history : ReadHistory

/-!
# Commands

A statement waits for the transactions that have its row, or the name that it is about to
claim; then it is refused when the name is taken.
-/

inductive SchedulerCommand where
  | showTime (now : Nat)
  | now
  | get (pk : Nat)
  | getByName (name : Text)
  /-- the flush of a new row, which gets its id -/
  | insert (m : TaskScheduler)
  /-- the flush of a changed row -/
  | update (id : Nat) (assignments : List Assignment)
  /-- the bulk update of the deleted flag -/
  | delete (pk : Nat)
  | commit (id : Nat)
  /-- `asyncio.create_task(cls.update_changed_async())` -/
  | createTask
  | startTask
  | startDisable
  | setLastUpdate (text : Nat)
  /-- `_initial_read` is looked at, and is no more -/
  | enter
  /-- `last_update` from Redis; when it is there, now is the new `_last_update` -/
  | getLastUpdate (now : Nat)
  /-- `self._schedule = run_await(self.get_all_task_schedulers)()` -/
  | fetch
  | leave

abbrev SchedulerCommand.Result : SchedulerCommand -> Type
  | now | insert _ | delete _ | startDisable => Nat
  | get _ | getByName _ => Option (Row TaskScheduler)
  | enter => Bool
  | getLastUpdate _ => Option (Nat × Option Nat)
  | leave => Option Entries
  | showTime _ | update _ _ | commit _ | createTask | startTask | setLastUpdate _ | fetch => Unit

abbrev schedulerInterface : Interface where
  Command := SchedulerCommand
  Result := SchedulerCommand.Result
  Error := SchedulerError

abbrev SchedulerAction := Program schedulerInterface

namespace SchedulerState

def holders (s : SchedulerState) (name : Text) : List Nat :=
  (s.rows.filter fun row => row.deleted = 0 && row.value.name = name).map Row.id ++
    (s.inFlight.filter fun w => w.claim = some name).map Write.id

def claim (s : SchedulerState) (id : Nat) (assignments : List Assignment) : Option Text :=
  (s.rows.get id).bind fun row =>
    if (row.value.assign assignments).name = row.value.name then none
    else some (row.value.assign assignments).name

def flush (s : SchedulerState) (w : Write) : SchedulerState :=
  { s with inFlight := s.inFlight ++ [w] }

def committed (s : SchedulerState) (w : Write) : SchedulerState :=
  { s with
    rows := w.apply s.rows
    inFlight := s.inFlight.filter fun u => u.id ≠ w.id
    history :=
      if enabledRows (w.apply s.rows) = enabledRows s.rows then s.history
      else { missed := true, reads := 0, since := false } }

def exec (fromString : FromString) :
    (c : SchedulerCommand) -> SchedulerState -> SchedulerState × Except SchedulerError c.Result
  | .showTime now, s => ({ s with clock := now }, .ok ())
  | .now, s => (s, .ok s.clock)
  | .get pk, s => (s, .ok (s.rows.get pk))
  | .getByName name, s => (s, .ok (s.rows.getBy fun m => m.name = name))
  | .insert m, s =>
      let s' := { s with nextId := s.nextId + 1 }
      if s.holders m.name = [] then
        (s'.flush ⟨s.nextId, .insert m, some m.name⟩, .ok s.nextId)
      else
        (s', .error .integrity)
  | .update id assignments, s =>
      if (s.claim id assignments).all fun name => s.holders name = [] then
        (s.flush ⟨id, .update assignments, s.claim id assignments⟩, .ok ())
      else
        (s, .error .integrity)
  | .delete pk, s =>
      match s.rows.get pk with
      | some _ => (s.flush ⟨pk, .delete, none⟩, .ok 1)
      | none => (s, .ok 0)
  | .commit id, s =>
      match s.inFlight.find? fun w => w.id = id with
      | some w => (s.committed w, .ok ())
      | none => (s, .ok ())
  | .createTask, s => ({ s with updates := s.updates + 1 }, .ok ())
  | .startTask, s => ({ s with updates := s.updates - 1 }, .ok ())
  | .startDisable, s =>
      ({ s with disables := s.disables.tail }, .ok (s.disables.headD 0))
  | .setLastUpdate text, s => ({ s with lastUpdate := some text }, .ok ())
  | .enter, s =>
      ({ s with
         beat := { s.beat with initialRead := false }
         reading := true
         history := { s.history with since := true } }, .ok s.beat.initialRead)
  | .getLastUpdate now, s =>
      match s.lastUpdate with
      | none => (s, .ok none)
      | some text =>
          ({ s with beat := { s.beat with lastUpdate := some now } },
            .ok (some (text, s.beat.lastUpdate)))
  | .fetch, s =>
      match makeEntries fromString (enabledRows s.rows) with
      | (disables, .ok _) =>
          ({ s with
             disables := s.disables ++ disables
             beat := { s.beat with schedule := some (entriesOf (enabledRows s.rows)) }
             history := { s.history with missed := false } }, .ok ())
      | (disables, .error e) =>
          -- the exception ends the read
          ({ s with disables := s.disables ++ disables, reading := false }, .error e)
  | .leave, s =>
      ({ s with
         reading := false
         history := { s.history with
           reads := if s.history.since then s.history.reads + 1 else s.history.reads } },
        .ok s.beat.schedule)

end SchedulerState

def schedulerCommand (c : SchedulerCommand) : SchedulerAction c.Result :=
  @Program.issue schedulerInterface c

def checked (r : Except SchedulerError Unit) : SchedulerAction Unit :=
  match r with
  | .ok _ => .ret ()
  | .error e => .raise e

/-!
# Services

The services of the API flush and commit in transactions of their own.  The mapper events fire
at the flush, and an object with `no_changes` fires none.
-/

structure Dirty where
  loaded : Row TaskScheduler
  assignments : List Assignment
  noChanges : Bool

/-- The flush of an object with its mapper events, and the commit of the transaction. -/
def commitDirty (dirty : Dirty) : SchedulerAction Unit := do
  checked (dirty.loaded.value.assign dirty.assignments).beforeInsertOrUpdate
  let changes := dirty.loaded.value.changes dirty.assignments
  if changes = [] then
    -- an object without a net change has its events all the same
    if dirty.noChanges then
      return ()
    else
      schedulerCommand .createTask
  else
    schedulerCommand (.update dirty.loaded.id changes)
    if dirty.noChanges then
      schedulerCommand (.commit dirty.loaded.id)
    else
      schedulerCommand .createTask
      schedulerCommand (.commit dirty.loaded.id)

namespace CRUDTaskScheduler

def create (obj : TaskSchedulerParam) : SchedulerAction Nat := do
  checked obj.toModel.beforeInsertOrUpdate
  let id ← schedulerCommand (.insert obj.toModel)
  schedulerCommand .createTask
  return id

def set (taskScheduler : Row TaskScheduler) (assignments : List Assignment) :
    SchedulerAction Dirty := do
  let again ← schedulerCommand (.get taskScheduler.id)
  match again with
  | none => .raise .attribute
  | some _ => return ⟨taskScheduler, assignments, false⟩

def update (taskScheduler : Row TaskScheduler) (obj : TaskSchedulerParam) :
    SchedulerAction Dirty :=
  set taskScheduler obj.dumpSet

def setStatus (taskScheduler : Row TaskScheduler) (status : Bool) : SchedulerAction Dirty :=
  set taskScheduler [.enabled status]

def delete (pk : Nat) : SchedulerAction Nat :=
  schedulerCommand (.delete pk)

end CRUDTaskScheduler

namespace TaskSchedulerService

def found (pk : Nat) : SchedulerAction (Row TaskScheduler) := do
  let taskScheduler ← schedulerCommand (.get pk)
  match taskScheduler with
  | none => .raise (.errors (.notFound "任务调度不存在".toList))
  | some taskScheduler => return taskScheduler

def verify (fromString : FromString) (obj : TaskSchedulerParam) : SchedulerAction Unit :=
  if obj.type = .crontab then
    checked (crontabVerify fromString obj.toModel.crontab)
  else
    .ret ()

def create (fromString : FromString) (obj : TaskSchedulerParam) : SchedulerAction Nat := do
  let taskScheduler ← schedulerCommand (.getByName obj.name)
  match taskScheduler with
  | some _ => .raise (.errors (.conflict "任务调度已存在".toList))
  | none =>
      verify fromString obj
      CRUDTaskScheduler.create obj

def update (fromString : FromString) (pk : Nat) (obj : TaskSchedulerParam) :
    SchedulerAction Dirty := do
  let taskScheduler ← found pk
  if taskScheduler.value.name ≠ obj.name then
    let other ← schedulerCommand (.getByName obj.name)
    match other with
    | some _ => .raise (.errors (.conflict "任务调度已存在".toList))
    | none =>
        verify fromString obj
        CRUDTaskScheduler.update taskScheduler obj
  else
    verify fromString obj
    CRUDTaskScheduler.update taskScheduler obj

def updateStatus (pk : Nat) : SchedulerAction Dirty := do
  let taskScheduler ← found pk
  CRUDTaskScheduler.setStatus taskScheduler !taskScheduler.value.enabled

def delete (pk : Nat) : SchedulerAction Nat := do
  let _ ← found pk
  CRUDTaskScheduler.delete pk

end TaskSchedulerService

def updateChangedAsync : SchedulerAction Unit := do
  schedulerCommand .startTask
  let now ← schedulerCommand .now
  schedulerCommand (.setLastUpdate (timeToStr now))

namespace ModelEntry

def disable : SchedulerAction Unit := do
  let id ← schedulerCommand .startDisable
  let task ← schedulerCommand (.get id)
  match task with
  | none => return ()
  | some task => commitDirty ⟨task, [.enabled false], true⟩

end ModelEntry

/-!
# Reads of the schedule

`schedule` checks the time of the last change, and reads the rows when it is later than the
check before.
-/

namespace DatabaseScheduler

/-- `ts > (last or ts)` -/
def isLater (text : Nat) (last : Option Nat) : Bool :=
  last.getD (timeFromStr text) < timeFromStr text

def scheduleChanged : SchedulerAction Bool := do
  let now ← schedulerCommand .now
  let lastUpdate ← schedulerCommand (.getLastUpdate now)
  match lastUpdate with
  | none =>
      schedulerCommand (.setLastUpdate (timeToStr now))
      return false
  | some (text, last) => return isLater text last

def schedule : SchedulerAction (Option Entries) := do
  let initial ← schedulerCommand .enter
  let update ← if initial then Program.ret true else scheduleChanged
  if update then
    schedulerCommand .fetch
    schedulerCommand .leave
  else
    schedulerCommand .leave

end DatabaseScheduler

/-!
# Calls

A read goes through its check, its query and its return.
-/

inductive SchedulerCall where
  | create (obj : TaskSchedulerParam)
  | update (pk : Nat) (obj : TaskSchedulerParam)
  | updateStatus (pk : Nat)
  | delete (pk : Nat)
  /-- an event loop runs a task that it has -/
  | updateChanged
  | disable
  /-- Beat reads its schedule -/
  | schedule
  /-- the wall clock goes on, or is set -/
  | showTime (now : Nat)

def SchedulerCall.body (fromString : FromString) : SchedulerCall -> SchedulerAction Unit
  | create obj => do
      let id ← TaskSchedulerService.create fromString obj
      schedulerCommand (.commit id)
  | update pk obj => do
      let dirty ← TaskSchedulerService.update fromString pk obj
      commitDirty dirty
  | updateStatus pk => do
      let dirty ← TaskSchedulerService.updateStatus pk
      commitDirty dirty
  | delete pk => do
      let count ← TaskSchedulerService.delete pk
      if count = 0 then
        return ()
      else
        schedulerCommand (.commit pk)
  | updateChanged => updateChangedAsync
  | disable => ModelEntry.disable
  | schedule => do
      let _ ← DatabaseScheduler.schedule
  | showTime now => schedulerCommand (.showTime now)

inductive ReadProgress where
  | outside
  /-- `_initial_read` was not set -/
  | entered
  /-- the rows are to be read -/
  | due
  /-- the entries are to be returned -/
  | done
  deriving DecidableEq

def ReadProgress.next (g : ReadProgress) :
    (c : SchedulerCommand) -> Except SchedulerError c.Result -> ReadProgress
  | .enter, .ok true => due
  | .enter, .ok false => entered
  | .getLastUpdate _, .ok none => done
  | .getLastUpdate _, .ok (some (text, last)) =>
      if DatabaseScheduler.isLater text last then due else done
  | .fetch, .ok _ => done
  | .fetch, .error _ => outside
  | .leave, _ => outside
  | _, _ => g

def schedulerCalls (fromString : FromString) :
    CallSystem schedulerInterface SchedulerState SchedulerCall Unit ReadProgress where
  exec := SchedulerState.exec fromString
  body := SchedulerCall.body fromString
  start := .outside
  next := fun _ => ReadProgress.next

end RagService
