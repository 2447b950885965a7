import RagService.Scheduler.Constraint

/-!
# Schedules

Beat returns the enabled rows after two reads, as long as the second read after a commit that
changed them sees it announced: `last_update` is later than the check before.
-/

namespace RagService
namespace Schedules

open Interleaving Transitions

abbrev SchedulerConfig :=
  Calls schedulerInterface SchedulerState SchedulerCall Unit ReadProgress

/-- The rows when Beat starts, as the constraints of the table allow them. -/
structure StoredSchedulers where
  rows : Table TaskScheduler
  nextId : Nat
  ids : rows.ids.Nodup
  below : forall id, id ∈ rows.ids -> id < nextId
  names : forall a, a ∈ rows -> forall b, b ∈ rows -> a.deleted = 0 -> b.deleted = 0 ->
    a.value.name = b.value.name -> a.id = b.id

/-- The entries are those of the enabled rows that are not deleted. -/
def Current (s : SchedulerState) : Prop :=
  exists entries, s.beat.schedule = some entries ∧ forall name row,
    entries.get name = some row ↔
      row ∈ s.rows ∧ row.value.enabled = true ∧ row.deleted = 0 ∧ row.value.name = name

namespace SchedulerConfig

def initial (stored : StoredSchedulers) (clock : Nat) (lastUpdate : Option Nat) :
    SchedulerConfig where
  shared :=
    { clock := clock
      rows := stored.rows
      nextId := stored.nextId
      inFlight := []
      lastUpdate := lastUpdate
      updates := 0
      disables := []
      beat := ⟨true, none, none⟩
      reading := false
      history := ⟨true, 0, false⟩ }
  calls := []

/-!
# Conditions

When a task may take a step, and which checks of the second read come in time.
-/

/--
A task is started when it is there, Beat reads one schedule at a time, and a statement waits
for the transactions that have its row, or a row with the name that it is about to claim.
-/
def Runnable (s : SchedulerState) : SchedulerCommand -> Prop
  | .startTask => 0 < s.updates
  | .startDisable => s.disables ≠ []
  | .enter => s.reading = false
  | .insert m => forall w, w ∈ s.inFlight -> w.id ∉ s.holders m.name
  | .update id assignments => forall w, w ∈ s.inFlight -> w.id ≠ id ∧
      forall name, name ∈ s.claim id assignments -> w.id ∉ s.holders name
  | .delete pk => (s.rows.get pk).isSome = true -> forall w, w ∈ s.inFlight -> w.id ≠ pk
  | _ => True

def announced (s : SchedulerState) : Bool :=
  match s.lastUpdate with
  | none => false
  | some text => DatabaseScheduler.isLater text s.beat.lastUpdate

/--
When a commit has changed the enabled rows, and the entries have not been made since, then
the change is announced, at the latest when the second read checks.
-/
def Timely (s : SchedulerState) : SchedulerCommand -> Prop
  | .getLastUpdate _ => s.history.missed = true -> 1 ≤ s.history.reads -> announced s = true
  | _ => True

def Scheduled (cfg : SchedulerConfig) : CallAction SchedulerCall -> Prop
  | .start _ => True
  | .advance i => forall call, call ∈ cfg.calls[i]? ->
      forall c, c ∈ call.command -> Runnable cfg.shared c

def Announced (cfg : SchedulerConfig) : CallAction SchedulerCall -> Prop
  | .start _ => True
  | .advance i => forall call, call ∈ cfg.calls[i]? ->
      forall c, c ∈ call.command -> Timely cfg.shared c

def ScheduledAnnounced (cfg : SchedulerConfig) (a : CallAction SchedulerCall) : Prop :=
  cfg.Scheduled a ∧ cfg.Announced a

instance (s : SchedulerState) : (c : SchedulerCommand) -> Decidable (Runnable s c)
  | .startTask => inferInstanceAs (Decidable (0 < s.updates))
  | .startDisable => inferInstanceAs (Decidable (s.disables ≠ []))
  | .enter => inferInstanceAs (Decidable (s.reading = false))
  | .insert m => inferInstanceAs
      (Decidable (forall w, w ∈ s.inFlight -> w.id ∉ s.holders m.name))
  | .update id assignments => inferInstanceAs (Decidable (forall w, w ∈ s.inFlight ->
      w.id ≠ id ∧ forall name, name ∈ s.claim id assignments -> w.id ∉ s.holders name))
  | .delete pk => inferInstanceAs (Decidable ((s.rows.get pk).isSome = true ->
      forall w, w ∈ s.inFlight -> w.id ≠ pk))
  | .showTime _ | .now | .get _ | .getByName _ | .commit _ | .createTask => .isTrue trivial
  | .setLastUpdate _ | .getLastUpdate _ | .fetch | .leave => .isTrue trivial

instance (s : SchedulerState) : (c : SchedulerCommand) -> Decidable (Timely s c)
  | .getLastUpdate _ => inferInstanceAs (Decidable
      (s.history.missed = true -> 1 ≤ s.history.reads -> announced s = true))
  | .showTime _ | .now | .get _ | .getByName _ | .insert _ | .update _ _ => .isTrue trivial
  | .delete _ | .commit _ | .createTask | .startTask | .startDisable => .isTrue trivial
  | .setLastUpdate _ | .enter | .fetch | .leave => .isTrue trivial

instance (cfg : SchedulerConfig) : (a : CallAction SchedulerCall) -> Decidable (cfg.Scheduled a)
  | .start _ => .isTrue trivial
  | .advance i => inferInstanceAs (Decidable (forall call, call ∈ cfg.calls[i]? ->
      forall c, c ∈ call.command -> Runnable cfg.shared c))

instance (cfg : SchedulerConfig) : (a : CallAction SchedulerCall) -> Decidable (cfg.Announced a)
  | .start _ => .isTrue trivial
  | .advance i => inferInstanceAs (Decidable (forall call, call ∈ cfg.calls[i]? ->
      forall c, c ∈ call.command -> Timely cfg.shared c))

instance (cfg : SchedulerConfig) (a : CallAction SchedulerCall) :
    Decidable (cfg.ScheduledAnnounced a) :=
  inferInstanceAs (Decidable (_ ∧ _))

end SchedulerConfig

open SchedulerConfig

variable {fromString : FromString}

/-!
# The protocol of a call

A read has a progress, which its own commands move on; the other commands are allowed at every
progress, and leave it.
-/

def ofRead : SchedulerCommand -> Bool
  | .enter | .getLastUpdate _ | .fetch | .leave => true
  | _ => false

def Allowed (g : ReadProgress) : SchedulerCommand -> Prop
  | .enter => g = .outside
  | .getLastUpdate _ => g = .entered
  | .fetch => g = .due
  | .leave => g = .done
  | _ => True

theorem allowed_of_not_ofRead {g : ReadProgress} {c : SchedulerCommand} (h : ofRead c = false) :
    Allowed g c := by
  cases c with
  | enter | getLastUpdate _ | fetch | leave => cases h
  | showTime _ | now | get _ | getByName _ | insert _ | update _ _ | delete _ => trivial
  | commit _ | createTask | startTask | startDisable | setLastUpdate _ => trivial

theorem next_of_not_ofRead {g : ReadProgress} {c : SchedulerCommand} (h : ofRead c = false)
    (r : Except SchedulerError c.Result) : g.next c r = g := by
  cases c with
  | enter | getLastUpdate _ | fetch | leave => cases h
  | showTime _ | now | get _ | getByName _ | insert _ | update _ _ | delete _ => rfl
  | commit _ | createTask | startTask | startDisable | setLastUpdate _ => rfl

def schedulerProtocol (fromString : FromString) (op : SchedulerCall) :
    Protocol schedulerInterface ReadProgress :=
  (schedulerCalls fromString).protocol (fun _ => Allowed) (fun _ _ => True) op

section

abbrev Apart {α : Type} (p : SchedulerAction α) : Prop :=
  p.Issues (fun c => ofRead c = false) fun _ => True

theorem apart_command {c : SchedulerCommand} (h : ofRead c = false) :
    Apart (schedulerCommand c) := by
  refine ⟨h, fun r => ?_⟩
  cases r with
  | ok _ => trivial
  | error _ => trivial

theorem apart_checked (r : Except SchedulerError Unit) : Apart (checked r) := by
  cases r with
  | ok _ => trivial
  | error _ => trivial

theorem apart_commitDirty (dirty : Dirty) : Apart (commitDirty dirty) := by
  apply Program.issues_bind (apart_checked _)
  intro _ _
  show Apart (ite _ _ _)
  split
  · split
    · trivial
    · exact apart_command rfl
  · apply Program.issues_bind (apart_command rfl)
    intro _ _
    split
    · exact apart_command rfl
    · apply Program.issues_bind (apart_command rfl)
      intro _ _
      exact apart_command rfl

theorem apart_set (taskScheduler : Row TaskScheduler) (assignments : List Assignment) :
    Apart (CRUDTaskScheduler.set taskScheduler assignments) := by
  apply Program.issues_issue_bind
  · rfl
  · intro again
    cases again with
    | none => trivial
    | some _ => trivial

theorem apart_found (pk : Nat) : Apart (TaskSchedulerService.found pk) := by
  apply Program.issues_issue_bind
  · rfl
  · intro taskScheduler
    cases taskScheduler with
    | none => trivial
    | some _ => trivial

theorem apart_verify (fromString : FromString) (obj : TaskSchedulerParam) :
    Apart (TaskSchedulerService.verify fromString obj) := by
  unfold TaskSchedulerService.verify
  split
  · exact apart_checked _
  · trivial

theorem apart_create (fromString : FromString) (obj : TaskSchedulerParam) :
    Apart (TaskSchedulerService.create fromString obj) := by
  apply Program.issues_issue_bind
  · rfl
  · intro taskScheduler
    cases taskScheduler with
    | some _ => trivial
    | none =>
        apply Program.issues_bind (apart_verify fromString obj)
        intro _ _
        apply Program.issues_bind (apart_checked _)
        intro _ _
        apply Program.issues_bind (apart_command rfl)
        intro _ _
        apply Program.issues_bind (apart_command rfl)
        intro _ _
        trivial

theorem apart_update (fromString : FromString) (pk : Nat) (obj : TaskSchedulerParam) :
    Apart (TaskSchedulerService.update fromString pk obj) := by
  apply Program.issues_bind (apart_found pk)
  intro taskScheduler _
  show Apart (ite _ _ _)
  split
  · apply Program.issues_issue_bind
    · rfl
    · intro other
      cases other with
      | some _ => trivial
      | none =>
          apply Program.issues_bind (apart_verify fromString obj)
          intro _ _
          exact apart_set _ _
  · apply Program.issues_bind (apart_verify fromString obj)
    intro _ _
    exact apart_set _ _

theorem apart_updateStatus (pk : Nat) : Apart (TaskSchedulerService.updateStatus pk) := by
  apply Program.issues_bind (apart_found pk)
  intro taskScheduler _
  exact apart_set _ _

theorem apart_delete (pk : Nat) : Apart (TaskSchedulerService.delete pk) := by
  apply Program.issues_bind (apart_found pk)
  intro _ _
  exact apart_command rfl

theorem apart_updateChangedAsync : Apart updateChangedAsync := by
  apply Program.issues_bind (apart_command rfl)
  intro _ _
  apply Program.issues_bind (apart_command rfl)
  intro _ _
  exact apart_command rfl

theorem apart_disable : Apart ModelEntry.disable := by
  apply Program.issues_bind (apart_command rfl)
  intro id _
  apply Program.issues_issue_bind
  · rfl
  · intro task
    cases task with
    | none => trivial
    | some task => exact apart_commitDirty _

def Checked (g : ReadProgress) : Except SchedulerError Bool -> Prop
  | .ok true => g = .due
  | .ok false => g = .done
  | .error _ => True

theorem next_getLastUpdate (now text : Nat) (last : Option Nat) :
    ReadProgress.next .entered (.getLastUpdate now) (.ok (some (text, last))) =
      if DatabaseScheduler.isLater text last then .due else .done :=
  rfl

theorem scheduleChanged_follows (op : SchedulerCall) :
    (schedulerProtocol fromString op).Follows Checked .entered
      DatabaseScheduler.scheduleChanged := by
  apply Protocol.follows_issue_bind
  · trivial
  · intro now _
    apply Protocol.follows_issue_bind
    · rfl
    · intro lastUpdate _
      cases lastUpdate with
      | none =>
          apply Protocol.follows_issue_bind
          · trivial
          · intro _ _
            rfl
          · intro _ _
            trivial
      | some p =>
          rcases p with ⟨text, last⟩
          show (schedulerProtocol fromString op).Follows Checked
            (ReadProgress.next .entered (.getLastUpdate now) (.ok (some (text, last))))
            (Program.ret (DatabaseScheduler.isLater text last))
          rw [next_getLastUpdate]
          generalize DatabaseScheduler.isLater text last = later
          cases later with
          | true => rfl
          | false => rfl
    · intro _ _
      trivial
  · intro _ _
    trivial

theorem schedule_follows (op : SchedulerCall) :
    (schedulerProtocol fromString op).Follows (fun _ _ => True) .outside
      DatabaseScheduler.schedule := by
  have hleave : (schedulerProtocol fromString op).Follows
      (fun _ (_ : Except SchedulerError (Option Entries)) => True) .done
      (schedulerCommand .leave) := by
    refine ⟨rfl, fun r _ => ?_⟩
    cases r with
    | ok _ => trivial
    | error _ => trivial
  have hrest : forall g, Checked g (.ok true) -> (schedulerProtocol fromString op).Follows
      (fun _ (_ : Except SchedulerError (Option Entries)) => True) g
      ((schedulerCommand .fetch).bind fun _ => schedulerCommand .leave) := by
    intro g hdue
    cases hdue
    apply Protocol.follows_issue_bind
    · rfl
    · intro _ _
      exact hleave
    · intro _ _
      trivial
  apply Protocol.follows_issue_bind
  · rfl
  · intro initial _
    cases initial with
    | true => exact hrest .due rfl
    | false =>
        apply Protocol.follows_bind (scheduleChanged_follows op)
        · intro g changed hchecked
          cases changed with
          | true => exact hrest g hchecked
          | false =>
              cases hchecked
              exact hleave
        · intro _ _ _
          trivial
  · intro _ _
    trivial

theorem schedulerBody_follows (fromString : FromString) (op : SchedulerCall) :
    (schedulerProtocol fromString op).Follows (fun _ _ => True) .outside
      (op.body fromString) := by
  have hapart : forall p : SchedulerAction Unit, Apart p ->
      (schedulerProtocol fromString op).Follows (fun _ _ => True) .outside p :=
    fun p hp => Protocol.follows_of_issues hp (fun _ _ hc => allowed_of_not_ofRead hc) _
  cases op with
  | create obj =>
      apply hapart
      apply Program.issues_bind (apart_create fromString obj)
      intro id _
      exact apart_command rfl
  | update pk obj =>
      apply hapart
      apply Program.issues_bind (apart_update fromString pk obj)
      intro dirty _
      exact apart_commitDirty dirty
  | updateStatus pk =>
      apply hapart
      apply Program.issues_bind (apart_updateStatus pk)
      intro dirty _
      exact apart_commitDirty dirty
  | delete pk =>
      apply hapart
      apply Program.issues_bind (apart_delete pk)
      intro count _
      show Apart (ite _ _ _)
      split
      · trivial
      · exact apart_command rfl
  | updateChanged => exact hapart _ apart_updateChangedAsync
  | disable => exact hapart _ apart_disable
  | schedule =>
      apply Protocol.follows_bind (schedule_follows _)
      · intro _ _ _
        trivial
      · intro _ _ _
        trivial
  | showTime now => exact hapart _ (apart_command rfl)

end

/-!
# Commands

The enabled rows stay as they are, or the history begins anew.  A read that has begun since
they changed, and is not the first, misses nothing.
-/

def Settled (s : SchedulerState) : Prop :=
  s.history.since = true -> 1 ≤ s.history.reads -> s.history.missed = false

structure Kept (s : SchedulerState) (readers : List ReadProgress) : Prop where
  made : s.history.missed = false -> s.beat.schedule = some (entriesOf (enabledRows s.rows))
  settled : 2 ≤ s.history.reads -> s.history.missed = false
  reader : readers = [] ∧ s.reading = false ∨
    exists g, readers = [g] ∧ s.reading = true ∧ (g = .done -> Settled s)

variable {s s' : SchedulerState} {readers : List ReadProgress}

/-- The enabled rows stay as they are, or the history begins anew. -/
theorem exec_apart (fromString : FromString) {c : SchedulerCommand} (hc : ofRead c = false) :
    (s.exec fromString c).1.beat = s.beat ∧ (s.exec fromString c).1.reading = s.reading ∧
      (enabledRows (s.exec fromString c).1.rows = enabledRows s.rows ∧
        (s.exec fromString c).1.history = s.history ∨
      (s.exec fromString c).1.history = ⟨true, 0, false⟩) := by
  cases c with
  | enter | getLastUpdate _ | fetch | leave => cases hc
  | commit id =>
      simp only [SchedulerState.exec]
      split
      · rename_i w _
        refine ⟨rfl, rfl, ?_⟩
        by_cases hsame : enabledRows (w.apply s.rows) = enabledRows s.rows
        · exact .inl ⟨hsame, if_pos hsame⟩
        · exact .inr (if_neg hsame)
      · exact ⟨rfl, rfl, .inl ⟨rfl, rfl⟩⟩
  | insert m =>
      simp only [SchedulerState.exec]
      split
      · exact ⟨rfl, rfl, .inl ⟨rfl, rfl⟩⟩
      · exact ⟨rfl, rfl, .inl ⟨rfl, rfl⟩⟩
  | update id assignments =>
      simp only [SchedulerState.exec]
      split
      · exact ⟨rfl, rfl, .inl ⟨rfl, rfl⟩⟩
      · exact ⟨rfl, rfl, .inl ⟨rfl, rfl⟩⟩
  | delete pk =>
      simp only [SchedulerState.exec]
      split
      · exact ⟨rfl, rfl, .inl ⟨rfl, rfl⟩⟩
      · exact ⟨rfl, rfl, .inl ⟨rfl, rfl⟩⟩
  | showTime _ | now | get _ | getByName _ | createTask => exact ⟨rfl, rfl, .inl ⟨rfl, rfl⟩⟩
  | startTask | startDisable | setLastUpdate _ => exact ⟨rfl, rfl, .inl ⟨rfl, rfl⟩⟩

theorem Kept.apart (h : Kept s readers) {c : SchedulerCommand} (hc : ofRead c = false) :
    Kept (s.exec fromString c).1 readers := by
  rcases exec_apart (s := s) fromString hc with ⟨hbeat, hreading, hrows⟩
  generalize (s.exec fromString c).1 = s' at *
  cases hrows with
  | inl hsame =>
      rcases hsame with ⟨hrows, hhistory⟩
      constructor
      · rw [hhistory, hbeat, hrows]
        exact h.made
      · rw [hhistory]
        exact h.settled
      · unfold Settled
        rw [hreading, hhistory]
        exact h.reader
  | inr hanew =>
      constructor
      · rw [hanew]
        nofun
      · rw [hanew]
        intro htwo
        cases htwo
      · rw [hreading]
        cases h.reader with
        | inl hnone => exact .inl hnone
        | inr hone =>
            rcases hone with ⟨g, hreaders, hreads, -⟩
            refine .inr ⟨g, hreaders, hreads, ?_⟩
            intro _ hsince
            rw [hanew] at hsince
            cases hsince

theorem Kept.enter (fromString : FromString) (h : Kept s []) : exists g,
    ReadProgress.next .outside .enter (s.exec fromString .enter).2 = g ∧ g ≠ .outside ∧
      Kept (s.exec fromString .enter).1 [g] := by
  have hkept : forall g, g ≠ .done -> Kept (s.exec fromString .enter).1 [g] := by
    intro g hg
    constructor
    · exact h.made
    · exact h.settled
    · exact .inr ⟨g, rfl, rfl, fun hdone => absurd hdone hg⟩
  cases hinitial : s.beat.initialRead with
  | true =>
      refine ⟨.due, ?_, (fun heq => by cases heq), hkept .due fun heq => by cases heq⟩
      simp only [SchedulerState.exec, hinitial, ReadProgress.next]
  | false =>
      refine ⟨.entered, ?_, (fun heq => by cases heq), hkept .entered fun heq => by cases heq⟩
      simp only [SchedulerState.exec, hinitial, ReadProgress.next]

theorem Kept.getLastUpdate (fromString : FromString) (h : Kept s [.entered]) {now : Nat}
    (htimely : Timely s (.getLastUpdate now)) : exists g,
    ReadProgress.next .entered (.getLastUpdate now)
      (s.exec fromString (.getLastUpdate now)).2 = g ∧ g ≠ .outside ∧
      Kept (s.exec fromString (.getLastUpdate now)).1 [g] := by
  have htimely : s.history.missed = true -> 1 ≤ s.history.reads -> announced s = true := htimely
  have hreading : s.reading = true := by
    cases h.reader with
    | inl hnone => cases hnone.1
    | inr hone =>
        rcases hone with ⟨-, -, hreading, -⟩
        exact hreading
  have hsettled : announced s = false -> Settled s := by
    intro hquiet _ hreads
    cases hmissed : s.history.missed with
    | false => rfl
    | true =>
        rw [htimely hmissed hreads] at hquiet
        cases hquiet
  unfold announced at hsettled
  cases htext : s.lastUpdate with
  | none =>
      rw [htext] at hsettled
      refine ⟨.done, ?_, (fun heq => by cases heq), ?_⟩
      · simp only [SchedulerState.exec, htext, ReadProgress.next]
      · simp only [SchedulerState.exec, htext]
        constructor
        · exact h.made
        · exact h.settled
        · exact .inr ⟨.done, rfl, hreading, fun _ => hsettled rfl⟩
  | some text =>
      rw [htext] at hsettled
      cases hlater : DatabaseScheduler.isLater text s.beat.lastUpdate with
      | true =>
          refine ⟨.due, ?_, (fun heq => by cases heq), ?_⟩
          · simp only [SchedulerState.exec, htext, ReadProgress.next, hlater, if_true]
          · simp only [SchedulerState.exec, htext]
            constructor
            · exact h.made
            · exact h.settled
            · exact .inr ⟨.due, rfl, hreading, fun heq => by cases heq⟩
      | false =>
          refine ⟨.done, ?_, (fun heq => by cases heq), ?_⟩
          · simp only [SchedulerState.exec, htext, ReadProgress.next, hlater]
            rfl
          · simp only [SchedulerState.exec, htext]
            constructor
            · exact h.made
            · exact h.settled
            · exact .inr ⟨.done, rfl, hreading, fun _ => hsettled hlater⟩

theorem Kept.fetch (fromString : FromString) (h : Kept s [.due]) :
    ReadProgress.next .due .fetch (s.exec fromString .fetch).2 = .done ∧
        Kept (s.exec fromString .fetch).1 [.done] ∨
      ReadProgress.next .due .fetch (s.exec fromString .fetch).2 = .outside ∧
        Kept (s.exec fromString .fetch).1 [] := by
  simp only [SchedulerState.exec]
  split
  · refine .inl ⟨rfl, ?_⟩
    constructor
    · intro _
      rfl
    · intro _
      rfl
    · cases h.reader with
      | inl hnone => cases hnone.1
      | inr hone =>
          rcases hone with ⟨-, -, hreading, -⟩
          exact .inr ⟨.done, rfl, hreading, fun _ _ _ => rfl⟩
  · refine .inr ⟨rfl, ?_⟩
    constructor
    · exact h.made
    · exact h.settled
    · exact .inl ⟨rfl, rfl⟩

theorem Kept.leave (h : Kept s [.done]) : Kept (s.exec fromString .leave).1 [] := by
  have hdone : Settled s := by
    cases h.reader with
    | inl hnone => cases hnone.1
    | inr hone =>
        rcases hone with ⟨g, hreaders, -, hsettled⟩
        cases hreaders
        exact hsettled rfl
  constructor
  · exact h.made
  · intro htwo
    have htwo : 2 ≤ if s.history.since then s.history.reads + 1 else s.history.reads := htwo
    show s.history.missed = false
    split at htwo
    · rename_i hsince
      exact hdone hsince (Nat.le_of_succ_le_succ htwo)
    · exact h.settled htwo
  · exact .inl ⟨rfl, rfl⟩

/-!
# Steps

How far a call has come in its read tells what it will still do to the entries.
-/

variable {cfg cfg' : SchedulerConfig}

def readProgress (call : Call schedulerInterface SchedulerCall Unit ReadProgress) :
    Option ReadProgress :=
  if call.progress = .outside then none else some call.progress

theorem readProgress_of_ne {op : SchedulerCall} {program : SchedulerAction Unit}
    {g : ReadProgress} (hg : g ≠ .outside) : readProgress ⟨op, program, g⟩ = some g :=
  if_neg hg

structure SchedulesKept (fromString : FromString) (cfg : SchedulerConfig) : Prop where
  followed : (schedulerCalls fromString).Followed (fun _ => Allowed) (fun _ _ => True)
    (fun _ _ _ => True) cfg
  consistent : cfg.shared.Consistent
  kept : Kept cfg.shared (cfg.collect readProgress)

theorem StoredSchedulers.consistent (stored : StoredSchedulers) (clock : Nat)
    (lastUpdate : Option Nat) :
    (SchedulerConfig.initial stored clock lastUpdate).shared.Consistent where
  ids := stored.ids
  below := stored.below
  sound := by
    intro w hw
    cases hw
  one := by
    have hrow : forall name id, id ∈ (SchedulerConfig.initial stored clock
        lastUpdate).shared.holders name ->
        exists row, row ∈ stored.rows ∧ row.deleted = 0 ∧ row.value.name = name ∧ row.id = id := by
      intro name id hid
      cases SchedulerState.mem_holders.mp hid with
      | inl hrow => exact hrow
      | inr hclaim =>
          rcases hclaim with ⟨w, hw, -⟩
          cases hw
    intro name a b ha hb
    rcases hrow name a ha with ⟨x, hx, hlive, hname, hxa⟩
    rcases hrow name b hb with ⟨y, hy, hlive', hname', hyb⟩
    rw [← hxa, ← hyb]
    exact stored.names x hx y hy hlive hlive' (hname.trans hname'.symm)

theorem SchedulesKept.initial (stored : StoredSchedulers) (clock : Nat)
    (lastUpdate : Option Nat) : SchedulesKept fromString (.initial stored clock lastUpdate) where
  followed := nofun
  consistent := stored.consistent clock lastUpdate
  kept := by
    constructor
    · intro hmissed
      cases hmissed
    · intro htwo
      cases htwo
    · exact .inl ⟨rfl, rfl⟩

/-- A command of a read is one of the only read that is under way. -/
theorem SchedulesKept.reader_cases (h : SchedulesKept fromString cfg) {i : Nat} {op : SchedulerCall}
    {c : SchedulerCommand} {k : Except SchedulerError c.Result -> SchedulerAction Unit}
    {g : ReadProgress} (hi : cfg.calls[i]? = some ⟨op, .call c k, g⟩)
    (hrunnable : Runnable cfg.shared c) {r : Except SchedulerError c.Result}
    (hcalls : cfg'.calls = cfg.calls.set i ⟨op, k r, g.next c r⟩) :
    ofRead c = false ∧ cfg'.collect readProgress = cfg.collect readProgress ∨
    c = .enter ∧ g = .outside ∧ cfg.collect readProgress = [] ∧
      (g.next c r ≠ .outside -> cfg'.collect readProgress = [g.next c r]) ∨
    ofRead c = true ∧ c ≠ .enter ∧ cfg.collect readProgress = [g] ∧
      cfg'.collect readProgress = (readProgress ⟨op, k r, g.next c r⟩).toList := by
  have hallowed : Allowed g c := (h.followed _ (List.mem_of_getElem? hi)).1
  have hreader := h.kept.reader
  have honly : g ≠ .outside -> cfg.collect readProgress = [g] ∧
      cfg'.collect readProgress = (readProgress ⟨op, k r, g.next c r⟩).toList := by
    intro hg
    have hsome : readProgress ⟨op, .call c k, g⟩ = some g := readProgress_of_ne hg
    cases hreader with
    | inl hnone =>
        have hmem : g ∈ cfg.collect readProgress :=
          List.mem_filterMap.mpr ⟨_, List.mem_of_getElem? hi, hsome⟩
        rw [hnone.1] at hmem
        cases hmem
    | inr hone =>
        rcases hone with ⟨g', hreaders, -, -⟩
        rcases Calls.collect_advance_only hi hcalls hreaders hsome with ⟨heq, hlater⟩
        rw [hreaders, heq]
        exact ⟨rfl, hlater⟩
  cases hc : ofRead c with
  | false =>
      refine .inl ⟨rfl, ?_⟩
      apply Calls.collect_advance hi hcalls
      unfold readProgress
      rw [next_of_not_ofRead hc]
  | true =>
      right
      cases c with
      | enter =>
          have hg : g = .outside := hallowed
          subst hg
          have hnone : cfg.collect readProgress = [] := by
            cases hreader with
            | inl hnone => exact hnone.1
            | inr hone =>
                rcases hone with ⟨-, -, hreading, -⟩
                have hfree : cfg.shared.reading = false := hrunnable
                rw [hfree] at hreading
                cases hreading
          refine .inl ⟨rfl, rfl, hnone, fun hg => ?_⟩
          have hperm := Calls.collect_advance_new (f := readProgress) hi hcalls rfl
            (readProgress_of_ne hg)
          rw [hnone] at hperm
          exact List.perm_singleton.mp hperm
      | getLastUpdate now =>
          have hg : g = .entered := hallowed
          subst hg
          exact .inr ⟨rfl, nofun, honly nofun⟩
      | fetch =>
          have hg : g = .due := hallowed
          subst hg
          exact .inr ⟨rfl, nofun, honly nofun⟩
      | leave =>
          have hg : g = .done := hallowed
          subst hg
          exact .inr ⟨rfl, nofun, honly nofun⟩
      | showTime _ | now | get _ | getByName _ | insert _ | update _ _ => cases hc
      | delete _ | commit _ | createTask | startTask | startDisable => cases hc
      | setLastUpdate _ => cases hc

theorem SchedulesKept.step (h : SchedulesKept fromString cfg) {a : CallAction SchedulerCall}
    (hcond : cfg.ScheduledAnnounced a)
    (hstep : (schedulerCalls fromString).step cfg a = some cfg') :
    SchedulesKept fromString cfg' where
  followed := CallSystem.followed_step (schedulerBody_follows fromString) (fun _ => trivial)
    h.followed hstep
  consistent := by
    cases CallSystem.step_cases hstep with
    | inl hstart =>
        rcases hstart with ⟨op, -, hshared, -⟩
        rw [hshared]
        exact h.consistent
    | inr hadvance =>
        rcases hadvance with ⟨i, op, c, k, g, -, -, hshared, -⟩
        rw [hshared]
        exact h.consistent.exec c
  kept := by
    cases CallSystem.step_cases hstep with
    | inl hstart =>
        rcases hstart with ⟨op, -, hshared, hcalls⟩
        rw [hshared, Calls.collect_start hcalls rfl]
        exact h.kept
    | inr hadvance =>
        rcases hadvance with ⟨i, op, c, k, g, rfl, hi, hshared, hcalls⟩
        have hshared : cfg'.shared = (cfg.shared.exec fromString c).1 := hshared
        have hcalls : cfg'.calls = cfg.calls.set i ⟨op, k (cfg.shared.exec fromString c).2,
          g.next c (cfg.shared.exec fromString c).2⟩ := hcalls
        have hallowed : Allowed g c := (h.followed _ (List.mem_of_getElem? hi)).1
        have htimely : Timely cfg.shared c := hcond.2 _ hi c rfl
        have hkept := h.kept
        rw [hshared]
        rcases h.reader_cases hi (hcond.1 _ hi c rfl) hcalls with
          ⟨hc, hsame⟩ | ⟨rfl, rfl, hnone, hentered⟩ | ⟨hc, henter, hone, hlater⟩
        · rw [hsame]
          exact hkept.apart hc
        · rw [hnone] at hkept
          rcases hkept.enter fromString with ⟨g, hnext, hg, hafter⟩
          rw [hnext] at hentered
          rw [hentered hg]
          exact hafter
        · rw [hone] at hkept
          cases c with
          | enter => exact absurd rfl henter
          | getLastUpdate now =>
              have hg : g = .entered := hallowed
              subst hg
              rcases hkept.getLastUpdate fromString htimely with ⟨g, hnext, hg, hafter⟩
              rw [hnext] at hlater
              rw [hlater, readProgress_of_ne hg]
              exact hafter
          | fetch =>
              have hg : g = .due := hallowed
              subst hg
              cases hkept.fetch fromString with
              | inl hmade =>
                  rw [hmade.1] at hlater
                  rw [hlater]
                  exact hmade.2
              | inr hraised =>
                  rw [hraised.1] at hlater
                  rw [hlater]
                  exact hraised.2
          | leave =>
              have hg : g = .done := hallowed
              subst hg
              rw [hlater]
              exact hkept.leave
          | showTime _ | now | get _ | getByName _ | insert _ | update _ _ => cases hc
          | delete _ | commit _ | createTask | startTask | startDisable => cases hc
          | setLastUpdate _ => cases hc

/-!
# Runs
-/

/--
After two reads the schedule is that of the enabled rows, in every run in which a change of
the enabled rows is announced by the time the second read checks.
-/
theorem schedule_current {stored : StoredSchedulers} {clock : Nat} {lastUpdate : Option Nat}
    (hrun : Reaches (schedulerCalls fromString).step ScheduledAnnounced
      (SchedulerConfig.initial stored clock lastUpdate) cfg)
    (hreads : 2 ≤ cfg.shared.history.reads) : Current cfg.shared := by
  have hkept : SchedulesKept fromString cfg := by
    apply hrun.invariant
    · exact .initial stored clock lastUpdate
    · intro cfg a cfg' h hcond hstep
      exact h.step hcond hstep
  have hmade := hkept.kept.made (hkept.kept.settled hreads)
  exact ⟨_, hmade, fun _ _ => hkept.consistent.get_entriesOf⟩

/-!
# Samples

A row is created, announced and committed, and Beat reads it.
-/

def noSchedulers : StoredSchedulers where
  rows := []
  nextId := 1
  ids := List.nodup_nil
  below := fun _ hid => absurd hid List.not_mem_nil
  names := fun _ ha => absurd ha List.not_mem_nil

def sampleScheduler : TaskSchedulerParam where
  name := "a".toList
  task := "t".toList
  type := .interval
  optional := [.intervalEvery (some 5), .intervalPeriod (some .minutes)]

def steps (i n : Nat) : List (CallAction SchedulerCall) :=
  List.replicate n (.advance i)

def setClock (i now : Nat) : List (CallAction SchedulerCall) :=
  [.start (.showTime now), .advance i]

def createdAndRead : List (CallAction SchedulerCall) :=
  setClock 0 1000000 ++ [.start (.create sampleScheduler)] ++ steps 1 3 ++
    [.start .updateChanged] ++ steps 2 3 ++ steps 1 1 ++
    [.start .schedule] ++ steps 3 3 ++ setClock 4 2500000 ++ [.start .schedule] ++ steps 5 4

/-- The row is disabled, which is announced with the fifth second; Beat has checked before. -/
theorem schedule_current_sample : exists cfg : SchedulerConfig,
    Reaches (schedulerCalls fun _ => true).step ScheduledAnnounced
      (SchedulerConfig.initial noSchedulers 0 none) cfg ∧
    cfg.shared.beat.schedule = some [] ∧ Current cfg.shared := by
  obtain ⟨cfg, hrun, hreads, hschedule⟩ := exists_reaches (schedulerCalls fun _ => true).step
    ScheduledAnnounced (SchedulerConfig.initial noSchedulers 0 none)
    (createdAndRead ++ setClock 6 5000000 ++ [.start (.updateStatus 1)] ++ steps 7 4 ++
      [.start .updateChanged] ++ steps 8 3 ++ steps 7 1 ++ setClock 9 6000000 ++
      [.start .schedule] ++ steps 10 5 ++ setClock 11 7000000 ++ [.start .schedule] ++ steps 12 4)
    (fun cfg : SchedulerConfig =>
      2 ≤ cfg.shared.history.reads ∧ cfg.shared.beat.schedule = some []) (by decide +kernel)
  exact ⟨cfg, hrun, hschedule, schedule_current hrun hreads⟩

/-- A deletion is not announced, and Beat keeps the entry. -/
theorem schedule_current_fails : ¬ forall (fromString : FromString) (stored : StoredSchedulers)
    (clock : Nat) (lastUpdate : Option Nat) (cfg : SchedulerConfig),
    Reaches (schedulerCalls fromString).step Scheduled
      (SchedulerConfig.initial stored clock lastUpdate) cfg ->
    2 ≤ cfg.shared.history.reads -> Current cfg.shared := by
  intro h
  obtain ⟨cfg, hrun, hreads, hrows, hentry⟩ := exists_reaches (schedulerCalls fun _ => true).step
    Scheduled (SchedulerConfig.initial noSchedulers 0 none)
    (createdAndRead ++ setClock 6 5000000 ++ [.start (.delete 1)] ++ steps 7 3 ++
      setClock 8 6000000 ++ [.start .schedule] ++ steps 9 4 ++
      setClock 10 7000000 ++ [.start .schedule] ++ steps 11 4)
    (fun cfg : SchedulerConfig => 2 ≤ cfg.shared.history.reads ∧
      enabledRows cfg.shared.rows = [] ∧
      (cfg.shared.beat.schedule.bind fun entries => entries.get "a".toList).isSome = true)
    (by decide +kernel)
  rcases h _ noSchedulers 0 none cfg hrun hreads with ⟨entries, hschedule, hexact⟩
  rw [hschedule] at hentry
  rcases Option.isSome_iff_exists.mp hentry with ⟨row, hrow⟩
  rcases (hexact "a".toList row).mp hrow with ⟨hmem, henabled, hlive, -⟩
  have hlisted : row ∈ enabledRows cfg.shared.rows :=
    List.mem_filter.mpr ⟨hmem, by simp [henabled, hlive]⟩
  rw [hrows] at hlisted
  cases hlisted

end Schedules
end RagService
