import RagService.Admin.LogMiddleware

/-!
# The operation log is complete

Every request that is to be logged is written, lost with the batch in which the insert failed,
or still on its way, and the rows of the table keep the order in which the requests came to
their ends.
-/

namespace RagService
namespace OperaLog

def entries (env : LogEnv) (events : List LogEvent) : List CreateOperaLogParam :=
  events.filterMap (LogEvent.entry env)

def inserts (events : List LogEvent) : List Bool :=
  events.filterMap fun
    | .written => some true
    | .failed => some false
    | _ => none

/-- The way of the entries from the requests to the table. -/
structure LogsDelivered (env : LogEnv) (events : List LogEvent)
    (batches : List (List CreateOperaLogParam × Bool)) (s : LogState) : Prop where
  /-- nothing is lost, doubled or overtaken on the way to the inserts -/
  entries : entries env events =
    (batches.map Prod.fst).flatten ++ s.phase.inHand ++ s.queue.items
  inserts : batches.map Prod.snd = inserts events
  sizes : forall batch, batch ∈ batches ->
    batch.1 ≠ [] ∧ batch.1.length ≤ queueBatchConsumeSize
  /-- the table has the batches whose insert was committed -/
  rows : s.sink = ((batches.filter Prod.snd).map Prod.fst).flatten
  room : s.queue.items.length ≤ queueMaxsize ∧ s.phase.inHand.length ≤ queueBatchConsumeSize
  /-- `task_done` has never failed -/
  alive : forall items, s.phase ≠ .crashed items
  unfinished : (forall items, s.phase ≠ .cancelled items) ->
    s.queue.unfinished = s.phase.inHand.length + s.queue.items.length

section

variable {env : LogEnv} {events : List LogEvent}

theorem puts_steps (e : LogEvent) :
    BatchConsumer.puts (e.steps env) = (e.entry env).toList := by
  cases e with
  | ended v a measured =>
      simp only [LogEvent.steps]
      cases (LogEvent.ended v a measured).entry env with
      | none => rfl
      | some log => rfl
  | get => rfl
  | interrupted => rfl
  | written => rfl
  | failed => rfl
  | shutdown => rfl

theorem outcomes_steps (e : LogEvent) :
    BatchConsumer.outcomes (e.steps env) = inserts [e] := by
  cases e with
  | ended v a measured =>
      simp only [LogEvent.steps]
      cases (LogEvent.ended v a measured).entry env with
      | none => rfl
      | some log => rfl
  | get => rfl
  | interrupted => rfl
  | written => rfl
  | failed => rfl
  | shutdown => rfl

theorem puts_run : BatchConsumer.puts (events.flatMap (LogEvent.steps env)) =
    entries env events := by
  induction events with
  | nil => rfl
  | cons e rest ih =>
      rw [List.flatMap_cons, BatchConsumer.puts, List.filterMap_append]
      show BatchConsumer.puts _ ++ BatchConsumer.puts _ = _
      rw [ih, puts_steps]
      cases hentry : e.entry env with
      | none => exact (List.filterMap_cons_none hentry).symm
      | some log => exact (List.filterMap_cons_some hentry).symm

theorem outcomes_run : BatchConsumer.outcomes (events.flatMap (LogEvent.steps env)) =
    inserts events := by
  induction events with
  | nil => rfl
  | cons e rest ih =>
      rw [List.flatMap_cons, BatchConsumer.outcomes, List.filterMap_append]
      show BatchConsumer.outcomes _ ++ BatchConsumer.outcomes _ = _
      rw [ih, outcomes_steps, inserts, inserts, ← List.filterMap_append]
      rfl

theorem foldl_rows (batches : List (List CreateOperaLogParam))
    (rows : List CreateOperaLogParam) :
    batches.foldl (fun rows logs => consumer.handler logs rows) rows =
      rows ++ batches.flatten := by
  induction batches generalizing rows with
  | nil => simp
  | cons logs rest ih =>
      rw [List.foldl_cons, ih]
      simp [consumer]

end

/--
In every run of requests and the consumer, the entries of the requests that are to be logged
are written, lost in a batch whose insert failed, in hand, or in the queue, in this order and
each once.
-/
theorem operation_log_delivers {env : LogEnv} {events : List LogEvent} {s : LogState}
    (h : run env started events = some s) :
    exists batches, LogsDelivered env events batches s := by
  rcases BatchConsumer.delivered_run h with ⟨⟨batches, hdelivered⟩, hcounted⟩
  refine ⟨batches, ?_⟩
  constructor
  · rw [← puts_run]
    exact hdelivered.items
  · rw [← outcomes_run]
    exact hdelivered.outcomes
  · exact hdelivered.sizes
  · rw [hdelivered.sink, BatchConsumer.Params.handled, foldl_rows]
    rfl
  · constructor
    · have hroom := hdelivered.room.2
      unfold AsyncQueue.Fits at hroom
      rw [hdelivered.room.1] at hroom
      exact hroom (by decide)
    · exact hcounted.inHand
  · exact hdelivered.alive
  · exact hcounted.unfinished

/-!
# A sample run

Two requests: the insert of the first fails, and the second is still in the queue.
-/

namespace Sample

def logEnv : LogEnv where
  isPrintable := fun _ => true
  wide := fun _ => none
  form := fun _ _ => .ok []

def visit : Visit where
  path := "/api/v1/sys/users".toList
  method := "GET".toList
  request := ⟨[], [], none, none, []⟩
  username := some "admin".toList
  route := some (some "分页获取所有用户".toList)
  context := ⟨"-".toList, "127.0.0.1".toList, none, none, none, none, none, none, none, 0⟩

def visits : List LogEvent :=
  [.ended visit (.response []) 1, .get, .interrupted, .failed,
    .ended visit (.raised none none "boom".toList) 2]

end Sample

/-- A lost entry and one on its way. -/
theorem operation_log_delivers_lost : exists s batches,
    run Sample.logEnv started Sample.visits = some s ∧ s.sink = [] ∧
      LogsDelivered Sample.logEnv Sample.visits batches s := by
  have hrun : (run Sample.logEnv started Sample.visits).any
      (fun s => s.sink.isEmpty) = true := by decide +kernel
  rcases (Option.any_eq_true ..).mp hrun with ⟨s, hs, hempty⟩
  rcases operation_log_delivers hs with ⟨batches, h⟩
  exact ⟨s, batches, hs, List.isEmpty_iff.mp hempty, h⟩

end OperaLog
end RagService
