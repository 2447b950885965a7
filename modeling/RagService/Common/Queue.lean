import Mathlib.Data.List.Induction
import RagService.Foundation.Queues

/-!
# Batches from a queue

`batch_dequeue` and `batch_consume`: a task that takes items from a queue, up to so many or
until its time is over, and gives each batch to a handler.  Others put items while it waits,
and it may be cancelled where it waits.
-/

namespace RagService
namespace BatchConsumer

variable {α β : Type}

inductive Phase (α : Type) where
  /-- in `batch_dequeue`, with the items taken so far -/
  | dequeuing (items : List α)
  /-- in `await handler(items)` -/
  | handling (items : List α)
  /-- cancelled, with the items that it had in hand -/
  | cancelled (items : List α)
  /-- ended by the `ValueError` of `task_done` -/
  | crashed (items : List α)

structure State (α β : Type) where
  queue : AsyncQueue α
  phase : Phase α
  sink : β

inductive Event (α : Type) where
  /-- a producer puts an item -/
  | put (x : α)
  /-- the collector takes an item -/
  | get
  /-- the collector ends by its timeout or by an exception -/
  | interrupted
  /-- the handler returns -/
  | returned
  /-- the handler raises -/
  | raised
  /-- the task is cancelled -/
  | cancel

/-- The arguments of `batch_consume`, with what a call of the handler does that returns. -/
structure Params (α β : Type) where
  maxItems : Nat
  handler : List α -> β -> β

/-- `batch_dequeue` has returned; an empty batch is not handled. -/
def dequeued (items : List α) : Phase α :=
  if items.isEmpty then .dequeuing [] else .handling items

/-- `while len(items) < max_items` after an item. -/
def Params.collected (p : Params α β) (items : List α) : Phase α :=
  if items.length < p.maxItems then .dequeuing items else dequeued items

/-- The `finally` block: every item of the batch is done, and the task goes on as given. -/
def State.finish (s : State α β) (items : List α) (phase : Phase α) : State α β :=
  match s.queue.tasksDone items.length with
  | some queue => { s with queue := queue, phase := phase }
  | none => { s with phase := .crashed items }

def step (p : Params α β) (s : State α β) : Event α -> Option (State α β)
  | .put x => (s.queue.put x).map fun queue => { s with queue := queue }
  | .get =>
      match s.phase with
      | .dequeuing items =>
          if items.length < p.maxItems then
            s.queue.get.map fun taken =>
              { s with queue := taken.2, phase := p.collected (items ++ [taken.1]) }
          else none
      | _ => none
  | .interrupted =>
      match s.phase with
      | .dequeuing items => some { s with phase := dequeued items }
      | _ => none
  | .returned =>
      match s.phase with
      | .handling items =>
          some ({ s with sink := p.handler items s.sink }.finish items (.dequeuing []))
      | _ => none
  | .raised =>
      match s.phase with
      | .handling items => some (s.finish items (.dequeuing []))
      | _ => none
  | .cancel =>
      match s.phase with
      | .dequeuing items => some { s with phase := .cancelled items }
      | .handling items => some (s.finish items (.cancelled items))
      | _ => none

def run (p : Params α β) : State α β -> List (Event α) -> Option (State α β)
  | s, [] => some s
  | s, e :: rest => (step p s e).bind fun s' => run p s' rest

def start (maxsize : Nat) (sink : β) : State α β where
  queue := .empty maxsize
  phase := .dequeuing []
  sink := sink

/-!
# What becomes of the items

What has been put is, in its order, in the batches that the handler was given, in the hand of
the task, or in the queue.  The queue counts the items that are not reported as done; where it
counts those of the batch, none of the reports fails.
-/

def Phase.inHand : Phase α -> List α
  | dequeuing items => items
  | handling items => items
  | cancelled items => items
  | crashed items => items

def puts (events : List (Event α)) : List α :=
  events.filterMap fun
    | .put x => some x
    | _ => none

def outcomes (events : List (Event α)) : List Bool :=
  events.filterMap fun
    | .returned => some true
    | .raised => some false
    | _ => none

def Params.handled (p : Params α β) (batches : List (List α × Bool)) (sink : β) : β :=
  ((batches.filter Prod.snd).map Prod.fst).foldl (fun sink items => p.handler items sink) sink

/--
The items that have been put are, in their order, those of the batches that the handler was
given, those in hand, and those in the queue.
-/
structure Delivered (p : Params α β) (maxsize : Nat) (sink : β) (events : List (Event α))
    (batches : List (List α × Bool)) (s : State α β) : Prop where
  items : puts events = (batches.map Prod.fst).flatten ++ s.phase.inHand ++ s.queue.items
  outcomes : batches.map Prod.snd = outcomes events
  sizes : forall batch, batch ∈ batches -> batch.1 ≠ [] ∧ batch.1.length ≤ p.maxItems
  sink : s.sink = p.handled batches sink
  room : s.queue.maxsize = maxsize ∧ s.queue.Fits
  alive : forall items, s.phase ≠ .crashed items

structure Counted (p : Params α β) (s : State α β) : Prop where
  inHand : s.phase.inHand.length ≤ p.maxItems
  nonempty : forall items, s.phase = .handling items -> items ≠ []
  unfinished : (forall items, s.phase ≠ .cancelled items) ->
    s.queue.unfinished = s.phase.inHand.length + s.queue.items.length

section

variable {p : Params α β} {s s' : State α β} {e : Event α} {items : List α}

@[simp]
theorem inHand_dequeued : (dequeued items).inHand = items := by
  unfold dequeued
  cases items with
  | nil => rfl
  | cons x rest => rfl

@[simp]
theorem inHand_collected : (p.collected items).inHand = items := by
  unfold Params.collected
  split
  · rfl
  · exact inHand_dequeued

theorem dequeued_cases (items : List α) : (dequeued items = .dequeuing [] ∧ items = []) ∨
    (dequeued items = .handling items ∧ items ≠ []) := by
  unfold dequeued
  cases items with
  | nil => exact .inl ⟨rfl, rfl⟩
  | cons x rest => exact .inr ⟨rfl, List.cons_ne_nil x rest⟩

theorem collected_cases (p : Params α β) (items : List α) :
    p.collected items = .dequeuing items ∨
      (p.collected items = .handling items ∧ items ≠ []) := by
  unfold Params.collected
  split
  · exact .inl rfl
  · rcases dequeued_cases items with ⟨h, rfl⟩ | h
    · exact .inl h
    · exact .inr h

theorem puts_concat (events : List (Event α)) (e : Event α) :
    puts (events ++ [e]) = puts events ++ puts [e] :=
  List.filterMap_append ..

theorem outcomes_concat (events : List (Event α)) (e : Event α) :
    outcomes (events ++ [e]) = outcomes events ++ outcomes [e] :=
  List.filterMap_append ..

theorem run_concat (events : List (Event α)) (e : Event α) :
    run p s (events ++ [e]) = (run p s events).bind fun s' => step p s' e := by
  induction events generalizing s with
  | nil =>
      show (step p s e).bind some = step p s e
      cases step p s e with
      | none => rfl
      | some s' => rfl
  | cons first rest ih =>
      show (step p s first).bind _ = ((step p s first).bind _).bind _
      rw [Option.bind_assoc]
      congr 1
      funext s'
      exact ih

theorem handled_concat (batches : List (List α × Bool)) (items : List α) (returned : Bool)
    (sink : β) : p.handled (batches ++ [(items, returned)]) sink =
      if returned then p.handler items (p.handled batches sink) else p.handled batches sink := by
  cases returned with
  | true => simp [Params.handled, List.filter_append]
  | false => simp [Params.handled, List.filter_append]

theorem State.finish_of_le (h : items.length ≤ s.queue.unfinished) (phase : Phase α) :
    s.finish items phase =
      { s with
        queue := { s.queue with unfinished := s.queue.unfinished - items.length }
        phase := phase } := by
  rw [State.finish, AsyncQueue.tasksDone_of_le h]

/-!
# One step

One event either leaves the task in the batch that it collects, or ends the batch.
-/

inductive Moves (p : Params α β) (s : State α β) : Event α -> State α β -> Prop where
  | put {x : α} {queue : AsyncQueue α} (hput : s.queue.put x = some queue) :
      Moves p s (.put x) { s with queue := queue }
  | get {items : List α} {x : α} {queue : AsyncQueue α} (hphase : s.phase = .dequeuing items)
      (hroom : items.length < p.maxItems) (hget : s.queue.get = some (x, queue)) :
      Moves p s .get { s with queue := queue, phase := p.collected (items ++ [x]) }
  | interrupted {items : List α} (hphase : s.phase = .dequeuing items) :
      Moves p s .interrupted { s with phase := dequeued items }
  | returned {items : List α} (hphase : s.phase = .handling items) :
      Moves p s .returned
        { queue := { s.queue with unfinished := s.queue.unfinished - items.length }
          phase := .dequeuing []
          sink := p.handler items s.sink }
  | raised {items : List α} (hphase : s.phase = .handling items) :
      Moves p s .raised
        { s with
          queue := { s.queue with unfinished := s.queue.unfinished - items.length }
          phase := .dequeuing [] }
  | cancelDequeuing {items : List α} (hphase : s.phase = .dequeuing items) :
      Moves p s .cancel { s with phase := .cancelled items }
  | cancelHandling {items : List α} (hphase : s.phase = .handling items) :
      Moves p s .cancel
        { s with
          queue := { s.queue with unfinished := s.queue.unfinished - items.length }
          phase := .cancelled items }

theorem Counted.of_handling (h : Counted p s) (hphase : s.phase = .handling items) :
    s.queue.unfinished = items.length + s.queue.items.length := by
  have hcount := h.unfinished
  rw [hphase] at hcount
  exact hcount (by simp)

theorem Counted.le_unfinished (h : Counted p s) (hphase : s.phase = .handling items) :
    items.length ≤ s.queue.unfinished := by
  rw [h.of_handling hphase]
  exact Nat.le_add_right _ _

theorem moves_of_step (hcounted : Counted p s) (h : step p s e = some s') : Moves p s e s' := by
  cases e with
  | put x =>
      rcases Option.map_eq_some_iff.mp h with ⟨queue, hput, hs'⟩
      rw [← hs']
      exact .put hput
  | get =>
      simp only [step] at h
      split at h
      · rename_i items hphase
        split at h
        · rename_i hroom
          rcases Option.map_eq_some_iff.mp h with ⟨taken, hget, hs'⟩
          rw [← hs']
          exact .get hphase hroom hget
        · cases h
      · cases h
  | interrupted =>
      simp only [step] at h
      split at h
      · rename_i items hphase
        cases h
        exact .interrupted hphase
      · cases h
  | returned =>
      simp only [step] at h
      split at h
      · rename_i items hphase
        have hle := hcounted.le_unfinished hphase
        rw [State.finish_of_le (s := { s with sink := p.handler items s.sink }) hle] at h
        cases h
        exact .returned hphase
      · cases h
  | raised =>
      simp only [step] at h
      split at h
      · rename_i items hphase
        rw [State.finish_of_le (hcounted.le_unfinished hphase)] at h
        cases h
        exact .raised hphase
      · cases h
  | cancel =>
      simp only [step] at h
      split at h
      · rename_i items hphase
        cases h
        exact .cancelDequeuing hphase
      · rename_i items hphase
        rw [State.finish_of_le (hcounted.le_unfinished hphase)] at h
        cases h
        exact .cancelHandling hphase
      · cases h

theorem Counted.moves (h : Counted p s) (hmove : Moves p s e s') : Counted p s' := by
  have hinHand := h.inHand
  cases hmove with
  | put hput =>
      rw [AsyncQueue.put_eq_some hput]
      constructor
      · exact hinHand
      · exact h.nonempty
      · intro halive
        have hcount := h.unfinished halive
        simp only [List.length_append, List.length_singleton]
        omega
  | @get items x queue hphase hroom hget =>
      rcases AsyncQueue.get_eq_some hget with ⟨hitems, -, hunfinished⟩
      constructor
      · simp only [inHand_collected, List.length_append, List.length_singleton]
        exact hroom
      · intro batch hbatch
        rcases collected_cases p (items ++ [x]) with hcase | ⟨hcase, hne⟩
        · rw [hcase] at hbatch
          cases hbatch
        · rw [hcase] at hbatch
          cases hbatch
          exact hne
      · intro _
        have hcount := h.unfinished (by simp [hphase])
        rw [hphase, hitems] at hcount
        simp only [Phase.inHand, List.length_cons] at hcount
        simp only [inHand_collected, List.length_append, List.length_singleton]
        omega
  | interrupted hphase =>
      rw [hphase] at hinHand
      constructor
      · simp only [inHand_dequeued]
        exact hinHand
      · intro batch hbatch
        rcases dequeued_cases _ with ⟨hcase, -⟩ | ⟨hcase, hne⟩
        · rw [hcase] at hbatch
          cases hbatch
        · rw [hcase] at hbatch
          cases hbatch
          exact hne
      · intro _
        have hcount := h.unfinished (by simp [hphase])
        rw [hphase] at hcount
        simp only [inHand_dequeued]
        exact hcount
  | returned hphase =>
      constructor
      · exact Nat.zero_le _
      · intro batch hbatch
        cases hbatch
      · intro _
        have hcount := h.of_handling hphase
        simp only [Phase.inHand, List.length_nil]
        omega
  | raised hphase =>
      constructor
      · exact Nat.zero_le _
      · intro batch hbatch
        cases hbatch
      · intro _
        have hcount := h.of_handling hphase
        simp only [Phase.inHand, List.length_nil]
        omega
  | cancelDequeuing hphase =>
      rw [hphase] at hinHand
      constructor
      · exact hinHand
      · intro batch hbatch
        cases hbatch
      · intro halive
        exact absurd rfl (halive _)
  | cancelHandling hphase =>
      rw [hphase] at hinHand
      constructor
      · exact hinHand
      · intro batch hbatch
        cases hbatch
      · intro halive
        exact absurd rfl (halive _)

variable {maxsize : Nat} {sink : β} {events : List (Event α)} {batches : List (List α × Bool)}

theorem Delivered.goesOn (h : Delivered p maxsize sink events batches s)
    (hitems : s'.phase.inHand ++ s'.queue.items = s.phase.inHand ++ s.queue.items ++ puts [e])
    (houtcome : BatchConsumer.outcomes [e] = []) (hsink : s'.sink = s.sink)
    (hroom : s'.queue.maxsize = s.queue.maxsize ∧ s'.queue.Fits)
    (halive : forall items, s'.phase ≠ .crashed items) :
    Delivered p maxsize sink (events ++ [e]) batches s' where
  items := by
    rw [puts_concat, h.items, List.append_assoc _ _ s'.queue.items, hitems]
    simp only [List.append_assoc]
  outcomes := by
    rw [outcomes_concat, houtcome, List.append_nil]
    exact h.outcomes
  sizes := h.sizes
  sink := hsink.trans h.sink
  room := ⟨hroom.1.trans h.room.1, hroom.2⟩
  alive := halive

theorem Delivered.ends (h : Delivered p maxsize sink events batches s) (hcounted : Counted p s)
    (hphase : s.phase = .handling items) (returned : Bool) (hputs : puts [e] = [])
    (houtcome : BatchConsumer.outcomes [e] = [returned]) (unfinished : Nat) :
    Delivered p maxsize sink (events ++ [e]) (batches ++ [(items, returned)])
      { queue := { s.queue with unfinished := unfinished }
        phase := .dequeuing []
        sink := if returned then p.handler items s.sink else s.sink } where
  items := by
    rw [puts_concat, hputs, List.append_nil, h.items, hphase]
    simp [Phase.inHand]
  outcomes := by
    rw [List.map_append, outcomes_concat, houtcome, h.outcomes]
    rfl
  sizes := by
    intro batch hbatch
    rcases List.mem_append.mp hbatch with hold | hnew
    · exact h.sizes batch hold
    · have hle := hcounted.inHand
      rw [hphase] at hle
      rw [List.mem_singleton.mp hnew]
      exact ⟨hcounted.nonempty items hphase, hle⟩
  sink := by
    rw [handled_concat, ← h.sink]
  room := h.room
  alive := by
    intro batch hbatch
    cases hbatch

theorem Delivered.moves (h : Delivered p maxsize sink events batches s) (hcounted : Counted p s)
    (hmove : Moves p s e s') :
    exists batches', Delivered p maxsize sink (events ++ [e]) batches' s' := by
  cases hmove with
  | put hput =>
      refine ⟨batches, h.goesOn ?_ rfl rfl ⟨?_, AsyncQueue.fits_put hput⟩ h.alive⟩
      · rw [AsyncQueue.put_eq_some hput]
        simp [puts]
      · rw [AsyncQueue.put_eq_some hput]
  | @get items x queue hphase _ hget =>
      rcases AsyncQueue.get_eq_some hget with ⟨hitems, hmax, -⟩
      refine ⟨batches, h.goesOn ?_ rfl rfl ⟨hmax, h.room.2.get hget⟩ ?_⟩
      · rw [inHand_collected, hphase, hitems]
        simp [puts, Phase.inHand]
      · intro batch hbatch
        rcases collected_cases p (items ++ [x]) with hcase | ⟨hcase, -⟩
        · rw [hcase] at hbatch
          cases hbatch
        · rw [hcase] at hbatch
          cases hbatch
  | @interrupted items hphase =>
      refine ⟨batches, h.goesOn ?_ rfl rfl ⟨rfl, h.room.2⟩ ?_⟩
      · rw [inHand_dequeued, hphase]
        simp [puts, Phase.inHand]
      · intro batch hbatch
        rcases dequeued_cases items with ⟨hcase, -⟩ | ⟨hcase, -⟩
        · rw [hcase] at hbatch
          cases hbatch
        · rw [hcase] at hbatch
          cases hbatch
  | returned hphase => exact ⟨_, h.ends hcounted hphase true rfl rfl _⟩
  | raised hphase => exact ⟨_, h.ends hcounted hphase false rfl rfl _⟩
  | cancelDequeuing hphase =>
      refine ⟨batches, h.goesOn ?_ rfl rfl ⟨rfl, h.room.2⟩ ?_⟩
      · rw [hphase]
        simp [puts, Phase.inHand]
      · intro batch hbatch
        cases hbatch
  | cancelHandling hphase =>
      refine ⟨batches, h.goesOn ?_ rfl rfl ⟨rfl, h.room.2⟩ ?_⟩
      · rw [hphase]
        simp [puts, Phase.inHand]
      · intro batch hbatch
        cases hbatch

/-!
# Runs
-/

theorem delivered_run (h : run p (start maxsize sink) events = some s) :
    (exists batches, Delivered p maxsize sink events batches s) ∧ Counted p s := by
  induction events using List.reverseRecOn generalizing s with
  | nil =>
      cases h
      constructor
      · refine ⟨[], rfl, rfl, ?_, rfl, ⟨rfl, ?_⟩, ?_⟩
        · intro batch hbatch
          cases hbatch
        · intro _
          exact Nat.zero_le _
        · intro items hitems
          cases hitems
      · refine ⟨Nat.zero_le _, ?_, ?_⟩
        · intro items hitems
          cases hitems
        · intro _
          rfl
  | append_singleton events e ih =>
      rw [run_concat] at h
      rcases Option.bind_eq_some_iff.mp h with ⟨mid, hmid, hstep⟩
      rcases ih hmid with ⟨⟨batches, hdelivered⟩, hcounted⟩
      have hmove := moves_of_step hcounted hstep
      exact ⟨hdelivered.moves hcounted hmove, hcounted.moves hmove⟩

end

end BatchConsumer
end RagService
