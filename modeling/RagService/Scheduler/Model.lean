import RagService.Admin.Model
import RagService.Foundation.Dicts
import RagService.Foundation.Numbers

/-!
# Task schedulers

The rows of `task_scheduler`, the parameters of the requests on them, and the entries that
Beat makes of them.
-/

namespace RagService

open Admin

inductive TaskSchedulerType where
  | interval
  | crontab
  deriving DecidableEq

inductive PeriodType where
  | days
  | hours
  | minutes
  | seconds
  | microseconds
  deriving DecidableEq

/-- `task_scheduler`; a JSON column has the text of its value. -/
structure TaskScheduler where
  name : Text
  task : Text
  args : Text
  kwargs : Text
  queue : Option Text
  exchange : Option Text
  routingKey : Option Text
  startTime : Option Nat
  expireTime : Option Nat
  expireSeconds : Option Int
  type : TaskSchedulerType
  intervalEvery : Option Int
  intervalPeriod : Option PeriodType
  crontab : Text
  oneOff : Bool
  enabled : Bool
  remark : Option Text
  deriving DecidableEq

inductive SchedulerError where
  | errors (e : AdminError)
  /-- the unique constraint of name and deleted -/
  | integrity
  | attribute
  | value
  | type
  deriving DecidableEq

/-!
# Parameters

A field of the parameters that has a default is set or left out; `model_dump` fills the
defaults in, unless `exclude_unset` is given.
-/

inductive OptionalField where
  | args (value : Json)
  | kwargs (value : Json)
  | queue (value : Option Text)
  | exchange (value : Option Text)
  | routingKey (value : Option Text)
  | startTime (value : Option Nat)
  | expireTime (value : Option Nat)
  | expireSeconds (value : Option Int)
  | intervalEvery (value : Option Int)
  | intervalPeriod (value : Option PeriodType)
  | crontab (value : Text)
  | oneOff (value : Bool)
  | remark (value : Option Text)

/-- `setattr(task_scheduler, key, value)` -/
inductive Assignment where
  | name (value : Text)
  | task (value : Text)
  | type (value : TaskSchedulerType)
  | enabled (value : Bool)
  | optional (field : OptionalField)

/-- `TaskSchedulerSchemeBase`, with the fields that are set. -/
structure TaskSchedulerParam where
  name : Text
  task : Text
  type : TaskSchedulerType
  optional : List OptionalField

namespace TaskScheduler

def setField (m : TaskScheduler) : OptionalField -> TaskScheduler
  | .args value => { m with args := Json.dumps true value }
  | .kwargs value => { m with kwargs := Json.dumps true value }
  | .queue value => { m with queue := value }
  | .exchange value => { m with exchange := value }
  | .routingKey value => { m with routingKey := value }
  | .startTime value => { m with startTime := value }
  | .expireTime value => { m with expireTime := value }
  | .expireSeconds value => { m with expireSeconds := value }
  | .intervalEvery value => { m with intervalEvery := value }
  | .intervalPeriod value => { m with intervalPeriod := value }
  | .crontab value => { m with crontab := value }
  | .oneOff value => { m with oneOff := value }
  | .remark value => { m with remark := value }

def setattr (m : TaskScheduler) : Assignment -> TaskScheduler
  | .name value => { m with name := value }
  | .task value => { m with task := value }
  | .type value => { m with type := value }
  | .enabled value => { m with enabled := value }
  | .optional field => m.setField field

def assign (m : TaskScheduler) (assignments : List Assignment) : TaskScheduler :=
  assignments.foldl setattr m

def changes (m : TaskScheduler) (assignments : List Assignment) : List Assignment :=
  assignments.filter fun a => m.setattr a ≠ m

def beforeInsertOrUpdate (m : TaskScheduler) : Except SchedulerError Unit :=
  if m.expireSeconds.isSome ∧ m.expireTime.isSome then
    .error (.errors (.conflict "expires 和 expire_seconds 只能设置一个".toList))
  else
    .ok ()

end TaskScheduler

namespace TaskSchedulerParam

/-- The model of `obj.model_dump()`. -/
def toModel (obj : TaskSchedulerParam) : TaskScheduler :=
  obj.optional.foldl TaskScheduler.setField
    { name := obj.name
      task := obj.task
      args := Json.dumps true .null
      kwargs := Json.dumps true .null
      queue := none
      exchange := none
      routingKey := none
      startTime := none
      expireTime := none
      expireSeconds := none
      type := obj.type
      intervalEvery := none
      intervalPeriod := none
      crontab := "* * * * *".toList
      oneOff := false
      enabled := true
      remark := none }

/-- `obj.model_dump(exclude_unset=True)` -/
def dumpSet (obj : TaskSchedulerParam) : List Assignment :=
  [.name obj.name, .task obj.task, .type obj.type] ++ obj.optional.map .optional

end TaskSchedulerParam

/-- What `TzAwareCrontab.from_string` accepts. -/
abbrev FromString := Text -> Bool

def crontabVerify (fromString : FromString) (crontab : Text) : Except SchedulerError Unit :=
  -- `crontab.split(' ')` has one piece more than there are spaces
  if crontab.count ' ' + 1 ≠ 5 then
    .error (.errors (.request "Crontab 表达式非法".toList))
  else if fromString crontab then
    .ok ()
  else
    .error (.errors (.request "Crontab 表达式非法".toList))

/-!
# Times

Times are in microseconds.  The text of a time stands for the whole seconds, which are all that
`DATETIME_FORMAT` writes.
-/

/--
`timezone.to_str`: the text of a local time in microseconds stands for the whole seconds,
which are all that `DATETIME_FORMAT` writes.
-/
def timeToStr (t : Nat) : Nat :=
  t / 1000000

def timeFromStr (text : Nat) : Nat :=
  text * 1000000

/-!
# Entries

An entry is made of a row with its schedule and arguments; one that cannot be made disables its
row or raises, and then no entries are made at all.
-/

def PeriodType.length : PeriodType -> Int
  | days => 86400000000
  | hours => 3600000000
  | minutes => 60000000
  | seconds => 1000000
  | microseconds => 1

/-- `timedelta(**{period: every})` does not overflow. -/
def timedeltaFits (every : Int) (period : PeriodType) : Bool :=
  let days := every * period.length / PeriodType.days.length
  days ≤ 999999999 && -999999999 ≤ days

/-- `json.loads(value) if value else None` for the value of a JSON column. -/
def loadArguments (column : Text) : Except SchedulerError Unit :=
  match (Json.loads column).getD .null with
  | .str s =>
      if s.isEmpty ∨ (Json.loads s).isSome then .ok () else .error .value
  | value =>
      -- `json.loads` takes texts only
      if value.truthy then .error .type else .ok ()

namespace ModelEntry

def hasSchedule (fromString : FromString) (m : TaskScheduler) : Bool :=
  match m.type, m.intervalEvery, m.intervalPeriod with
  | .interval, some every, some period => timedeltaFits every period
  | .interval, _, _ => false
  | .crontab, _, _ => fromString m.crontab

/-- `__init__`: the tasks to disable the row that are created, and what is raised. -/
def init (fromString : FromString) (row : Row TaskScheduler) :
    List Nat × Except SchedulerError Unit :=
  let disables := if hasSchedule fromString row.value then [] else [row.id]
  let loaded := (loadArguments row.value.args).bind fun _ => loadArguments row.value.kwargs
  match loaded with
  | .ok _ => (disables, .ok ())
  | .error .value => (disables ++ [row.id], .ok ())
  | .error e => (disables, .error e)

end ModelEntry

/-- The rows that `get_all_task_schedulers` selects. -/
def enabledRows (rows : Table TaskScheduler) : List (Row TaskScheduler) :=
  rows.filter fun row => row.value.enabled && row.deleted = 0

abbrev Entries := Dict Text (Row TaskScheduler)

def entriesOf (rows : List (Row TaskScheduler)) : Entries :=
  Dict.ofPairs (rows.map fun row => (row.value.name, row))

/-- The entries are made one after the other, until one raises. -/
def makeEntries (fromString : FromString) : List (Row TaskScheduler) ->
    List Nat × Except SchedulerError Unit
  | [] => ([], .ok ())
  | row :: rest =>
      match ModelEntry.init fromString row with
      | (disables, .ok _) =>
          let (later, r) := makeEntries fromString rest
          (disables ++ later, r)
      | (disables, .error e) => (disables, .error e)

end RagService
