import RagService.Admin.OperaLog
import RagService.Common.Queue

/-!
# The operation log middleware

`OperaLogMiddleware.dispatch`: the log entry of a request, which it puts into a queue when the
request is over, and the consumer that writes the entries to the table in batches.
-/

namespace RagService
namespace OperaLog

def apiV1Path : Text :=
  "/api/v1".toList

/-- `OPERA_LOG_PATH_EXCLUDE` -/
def pathExclude : List Text :=
  ["/favicon.ico".toList, "/docs".toList, "/redoc".toList, "/openapi".toList,
    apiV1Path ++ "/auth/login/swagger".toList, apiV1Path ++ "/oauth2/github/callback".toList,
    apiV1Path ++ "/oauth2/google/callback".toList]

/-- `OPERA_LOG_QUEUE_MAXSIZE` -/
def queueMaxsize : Nat :=
  100000

/-- `OPERA_LOG_QUEUE_BATCH_CONSUME_SIZE` -/
def queueBatchConsumeSize : Nat :=
  100

/-!
# Requests and their ends

What the middleware sees of a request and of its end, and the entry that it makes of both: the
status is that of the first content which an exception handler has left in the context.
-/

structure RequestContext where
  traceId : Text
  ip : Text
  country : Option Text
  region : Option Text
  city : Option Text
  userAgent : Option Text
  os : Option Text
  browser : Option Text
  device : Option Text
  startTime : Nat

structure Visit where
  path : Text
  method : Text
  request : Request
  /-- `request.user.username`, if the user has a name -/
  username : Option Text
  /-- the route, if one was found, by its summary -/
  route : Option (Option Text)
  context : RequestContext

structure Failure where
  code : Text
  msg : Option Text

inductive Answer where
  /-- a response, with what the exception handlers have left in the context -/
  | response (context : Dict Text Failure)
  /-- an exception, with its `code` and its `msg`, if it has them, and its text -/
  | raised (code msg : Option Text) (text : Text)
  /-- the request is cancelled -/
  | cancelled

def exceptionKeys : List Text :=
  ["__request_http_exception__".toList, "__request_validation_exception__".toList,
    "__request_assertion_error__".toList, "__request_custom_exception__".toList,
    "__request_unknown_exception__".toList]

inductive StatusType where
  | disable
  | enable
  deriving DecidableEq

structure CreateOperaLogParam where
  traceId : Text
  username : Option Text
  method : Text
  title : Text
  path : Text
  ip : Text
  country : Option Text
  region : Option Text
  city : Option Text
  userAgent : Option Text
  os : Option Text
  browser : Option Text
  device : Option Text
  args : Option Args
  status : StatusType
  code : Text
  msg : Option Text
  costTime : Rat
  operaTime : Nat

def shouldLogOpera (path : Text) : Bool :=
  apiV1Path.isPrefixOf path && path ∉ pathExclude

def firstFailure (context : Dict Text Failure) : Option Failure :=
  exceptionKeys.findSome? context.get

def Answer.result : Answer -> StatusType × Text × Option Text
  | response context =>
      match firstFailure context with
      | some failure => (.disable, failure.code, failure.msg)
      | none => (.enable, "200".toList, some "Success".toList)
  | raised code msg text => (.disable, code.getD "500".toList, some (msg.getD text))
  | cancelled => (.enable, "200".toList, some "Success".toList)

/-- `elapsed`, which a cancelled request leaves at zero. -/
def Answer.elapsed (measured : Rat) : Answer -> Rat
  | cancelled => 0
  | _ => measured

/-- `dispatch`: the entry that the middleware puts into the queue, if any. -/
def dispatch (env : LogEnv) (v : Visit) (a : Answer) (measured : Rat) :
    Except LogError (Option CreateOperaLogParam) := do
  let args ← getRequestArgs env v.request
  if shouldLogOpera v.path ∧ v.method ≠ "OPTIONS".toList then
    return some
      { traceId := v.context.traceId
        username := v.username
        method := v.method
        title := (v.route.bind id).getD []
        path := v.path
        ip := v.context.ip
        country := v.context.country
        region := v.context.region
        city := v.context.city
        userAgent := v.context.userAgent
        os := v.context.os
        browser := v.context.browser
        device := v.context.device
        args := args
        status := a.result.1
        code := a.result.2.1
        msg := a.result.2.2
        costTime := a.elapsed measured
        operaTime := v.context.startTime }
  else
    return none

/-!
# The consumer

The consumer takes the entries in batches and writes each batch in one transaction, which may
fail.  A request is seen by the queue as the entry that it puts, if it puts one.
-/

/-- `consumer`, with the rows that `bulk_create` has written. -/
def consumer : BatchConsumer.Params CreateOperaLogParam (List CreateOperaLogParam) where
  maxItems := queueBatchConsumeSize
  handler := fun logs rows => rows ++ logs

abbrev LogState := BatchConsumer.State CreateOperaLogParam (List CreateOperaLogParam)

def started : LogState :=
  BatchConsumer.start queueMaxsize []

inductive LogEvent where
  /-- a request comes to its end in the middleware; one that is cancelled while its put waits
  for a full queue puts nothing, and is no event -/
  | ended (v : Visit) (a : Answer) (measured : Rat)
  /-- the collector takes an entry -/
  | get
  /-- the collector ends by its timeout or by an exception -/
  | interrupted
  /-- the transaction that writes the batch is committed -/
  | written
  /-- the transaction fails -/
  | failed
  /-- the server shuts down -/
  | shutdown

def LogEvent.entry (env : LogEnv) : LogEvent -> Option CreateOperaLogParam
  | ended v a measured =>
      match dispatch env v a measured with
      | .ok log => log
      | .error _ => none
  | _ => none

def LogEvent.steps (env : LogEnv) (e : LogEvent) :
    List (BatchConsumer.Event CreateOperaLogParam) :=
  match e with
  | ended _ _ _ => ((e.entry env).map BatchConsumer.Event.put).toList
  | get => [.get]
  | interrupted => [.interrupted]
  | written => [.returned]
  | failed => [.raised]
  | shutdown => [.cancel]

def run (env : LogEnv) (s : LogState) (events : List LogEvent) : Option LogState :=
  BatchConsumer.run consumer s (events.flatMap (LogEvent.steps env))

end OperaLog
end RagService
