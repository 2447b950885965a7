import RagService.Properties.Schedules

/-!
# Announcements

When every commit that changes the enabled rows comes after its announcement, in a later second
than the last check and with no check in between, the second read checks in time.
-/

namespace RagService
namespace Schedules

open Interleaving Transitions SchedulerConfig

variable {fromString : FromString}

namespace SchedulerConfig

/-!
# Commits and announcements

The conditions are on the commands that change something: a commit, an announcement, and the
query of a read.
-/

/--
A commit that changes the enabled rows has been announced since the last check, or Beat has made
no entries yet.  The next announcement does not take the last one back, and entries that are
read can be made.
-/
def Told (fromString : FromString) (s : SchedulerState) : SchedulerCommand -> Prop
  | .commit id => forall w, w ∈ s.inFlight.find? (fun w => w.id = id) ->
      enabledRows (w.apply s.rows) = enabledRows s.rows ∨
        announced s = true ∨ s.beat.schedule = none
  | .setLastUpdate text =>
      announced s = true -> DatabaseScheduler.isLater text s.beat.lastUpdate = true
  | .fetch => (makeEntries fromString (enabledRows s.rows)).2 = .ok ()
  | _ => True

def ScheduledTold (fromString : FromString) (cfg : SchedulerConfig)
    (a : CallAction SchedulerCall) : Prop :=
  cfg.Scheduled a ∧
    match a with
    | .start _ => True
    | .advance i => forall call, call ∈ cfg.calls[i]? ->
        forall c, c ∈ call.command -> Told fromString cfg.shared c

instance (s : SchedulerState) : (c : SchedulerCommand) -> Decidable (Told fromString s c)
  | .commit id => inferInstanceAs (Decidable (forall w, w ∈ s.inFlight.find? (fun w => w.id = id) ->
      enabledRows (w.apply s.rows) = enabledRows s.rows ∨
        announced s = true ∨ s.beat.schedule = none))
  | .setLastUpdate text => inferInstanceAs (Decidable
      (announced s = true -> DatabaseScheduler.isLater text s.beat.lastUpdate = true))
  | .fetch => inferInstanceAs (Decidable
      ((makeEntries fromString (enabledRows s.rows)).2 = .ok ()))
  | .showTime _ | .now | .get _ | .getByName _ | .insert _ | .update _ _ => .isTrue trivial
  | .delete _ | .createTask | .startTask | .startDisable => .isTrue trivial
  | .enter | .getLastUpdate _ | .leave => .isTrue trivial

instance (cfg : SchedulerConfig) : (a : CallAction SchedulerCall) ->
    Decidable (cfg.ScheduledTold fromString a)
  | .start op => inferInstanceAs (Decidable (cfg.Scheduled (.start op) ∧ True))
  | .advance i => inferInstanceAs (Decidable (cfg.Scheduled (.advance i) ∧
      forall call, call ∈ cfg.calls[i]? ->
        forall c, c ∈ call.command -> Told fromString cfg.shared c))

end SchedulerConfig

/-!
# Changes that have not been read

What Beat has missed is announced, or it is about to be read.
-/

structure Unread (s : SchedulerState) (readers : List ReadProgress) : Prop where
  told : s.history.missed = true ->
    announced s = true ∨ s.beat.schedule = none ∨ readers = [.due]
  first : s.beat.schedule = none -> s.beat.initialRead = true ∧ readers = [] ∨ readers = [.due]

variable {s : SchedulerState} {readers : List ReadProgress}

/-- A read that is under way, and is not about to read the rows, has had a read before it. -/
theorem Unread.made {g : ReadProgress} (h : Unread s [g]) (hg : g ≠ .due) :
    s.beat.schedule ≠ none := by
  intro hnone
  rcases h.first hnone with ⟨-, hempty⟩ | heq
  · cases hempty
  · exact hg (List.singleton_inj.mp heq)

theorem Unread.announced {g : ReadProgress} (h : Unread s [g]) (hg : g ≠ .due)
    (hmissed : s.history.missed = true) : announced s = true := by
  rcases h.told hmissed with hannounced | hnone | heq
  · exact hannounced
  · exact absurd hnone (h.made hg)
  · exact absurd (List.singleton_inj.mp heq) hg

theorem Unread.apart (h : Unread s readers) {c : SchedulerCommand} (hc : ofRead c = false)
    (htold : Told fromString s c) : Unread (s.exec fromString c).1 readers := by
  cases c with
  | enter | getLastUpdate _ | fetch | leave => cases hc
  | commit id =>
      simp only [SchedulerState.exec]
      split
      · rename_i w hw
        refine ⟨fun hmissed => ?_, h.first⟩
        rcases htold w hw with hsame | hannounced | hnone
        · have hhistory : (s.committed w).history = s.history := if_pos hsame
          rw [hhistory] at hmissed
          exact h.told hmissed
        · exact .inl hannounced
        · exact .inr (.inl hnone)
      · exact h
  | setLastUpdate text =>
      refine ⟨fun hmissed => ?_, h.first⟩
      rcases h.told hmissed with hannounced | hlater
      · exact .inl (htold hannounced)
      · exact .inr hlater
  | insert m =>
      simp only [SchedulerState.exec]
      split
      · exact ⟨h.told, h.first⟩
      · exact ⟨h.told, h.first⟩
  | update id assignments =>
      simp only [SchedulerState.exec]
      split
      · exact ⟨h.told, h.first⟩
      · exact h
  | delete pk =>
      simp only [SchedulerState.exec]
      split
      · exact ⟨h.told, h.first⟩
      · exact h
  | showTime _ | now | get _ | getByName _ | createTask | startTask | startDisable =>
      exact ⟨h.told, h.first⟩

theorem Unread.enter (fromString : FromString) (h : Unread s []) : exists g,
    ReadProgress.next .outside .enter (s.exec fromString .enter).2 = g ∧ g ≠ .outside ∧
      Unread (s.exec fromString .enter).1 [g] := by
  cases hinitial : s.beat.initialRead with
  | true =>
      refine ⟨.due, ?_, (fun heq => by cases heq), fun _ => .inr (.inr rfl), fun _ => .inr rfl⟩
      simp only [SchedulerState.exec, hinitial, ReadProgress.next]
  | false =>
      have hmade : s.beat.schedule ≠ none := by
        intro hnone
        rcases h.first hnone with ⟨hfirst, -⟩ | hdue
        · rw [hinitial] at hfirst
          cases hfirst
        · cases hdue
      refine ⟨.entered, ?_, (fun heq => by cases heq), fun hmissed => ?_, ?_⟩
      · simp only [SchedulerState.exec, hinitial, ReadProgress.next]
      · rcases h.told hmissed with hannounced | hnone | hdue
        · exact .inl hannounced
        · exact absurd hnone hmade
        · cases hdue
      · exact fun hnone => absurd hnone hmade

theorem Unread.getLastUpdate (fromString : FromString) (h : Unread s [.entered]) (now : Nat) :
    exists g,
    ReadProgress.next .entered (.getLastUpdate now)
      (s.exec fromString (.getLastUpdate now)).2 = g ∧ g ≠ .outside ∧
      Unread (s.exec fromString (.getLastUpdate now)).1 [g] := by
  have hentered : ReadProgress.entered ≠ .due := by decide
  have hmade : s.beat.schedule ≠ none := h.made hentered
  have hannounced := h.announced hentered
  unfold SchedulerConfig.announced at hannounced
  cases htext : s.lastUpdate with
  | none =>
      rw [htext] at hannounced
      refine ⟨.done, ?_, (fun heq => by cases heq), ?_⟩
      · simp only [SchedulerState.exec, htext, ReadProgress.next]
      · simp only [SchedulerState.exec, htext]
        refine ⟨fun hmissed => ?_, fun hnone => absurd hnone hmade⟩
        cases hannounced hmissed
  | some text =>
      rw [htext] at hannounced
      cases hlater : DatabaseScheduler.isLater text s.beat.lastUpdate with
      | true =>
          refine ⟨.due, ?_, (fun heq => by cases heq), fun _ => .inr (.inr rfl), fun _ => .inr rfl⟩
          simp only [SchedulerState.exec, htext, ReadProgress.next, hlater, if_true]
      | false =>
          refine ⟨.done, ?_, (fun heq => by cases heq), ?_⟩
          · simp only [SchedulerState.exec, htext, ReadProgress.next, hlater]
            rfl
          · simp only [SchedulerState.exec, htext]
            refine ⟨fun hmissed => ?_, fun hnone => absurd hnone hmade⟩
            -- what has been missed would have been read
            have hread : DatabaseScheduler.isLater text s.beat.lastUpdate = true :=
              hannounced hmissed
            rw [hlater] at hread
            cases hread

theorem Unread.fetch (htold : Told fromString s .fetch) :
    ReadProgress.next .due .fetch (s.exec fromString .fetch).2 = .done ∧
      Unread (s.exec fromString .fetch).1 [.done] := by
  have hentries : (makeEntries fromString (enabledRows s.rows)).2 = .ok () := htold
  simp only [SchedulerState.exec]
  split
  · refine ⟨rfl, fun hmissed => ?_, fun hnone => ?_⟩
    · cases hmissed
    · cases hnone
  · rename_i e heq
    rw [heq] at hentries
    cases hentries

theorem Unread.leave (h : Unread s [.done]) : Unread (s.exec fromString .leave).1 [] :=
  ⟨fun hmissed => .inl (h.announced nofun hmissed), fun hnone => absurd hnone (h.made nofun)⟩

/-!
# Steps

The check of a read comes in time, and what has not been read stays announced.
-/

variable {cfg cfg' : SchedulerConfig}

theorem Unread.step (hkept : SchedulesKept fromString cfg)
    (h : Unread cfg.shared (cfg.collect readProgress)) {a : CallAction SchedulerCall}
    (hcond : cfg.ScheduledTold fromString a)
    (hstep : (schedulerCalls fromString).step cfg a = some cfg') :
    cfg.Announced a ∧ Unread cfg'.shared (cfg'.collect readProgress) := by
  rcases hcond with ⟨hscheduled, htold⟩
  rcases CallSystem.step_cases hstep with
    ⟨op, rfl, hshared, hcalls⟩ | ⟨i, op, c, k, g, rfl, hi, hshared, hcalls⟩
  · rw [hshared, Calls.collect_start hcalls rfl]
    exact ⟨trivial, h⟩
  · have hshared : cfg'.shared = (cfg.shared.exec fromString c).1 := hshared
    have hcalls : cfg'.calls = cfg.calls.set i ⟨op, k (cfg.shared.exec fromString c).2,
      g.next c (cfg.shared.exec fromString c).2⟩ := hcalls
    have hallowed : Allowed g c := (hkept.followed _ (List.mem_of_getElem? hi)).1
    have htold : Told fromString cfg.shared c := htold _ hi c rfl
    -- only the check of a read has to come in time
    have hannounced : Timely cfg.shared c -> cfg.Announced (.advance i) := by
      intro htimely call hcall c' hc'
      rw [hi] at hcall
      cases hcall
      cases hc'
      exact htimely
    rw [hshared]
    rcases hkept.reader_cases hi (hscheduled _ hi c rfl) hcalls with
      ⟨hc, hsame⟩ | ⟨rfl, rfl, hnone, hentered⟩ | ⟨hc, henter, hone, hlater⟩
    · rw [hsame]
      refine ⟨hannounced ?_, h.apart hc htold⟩
      cases c with
      | getLastUpdate _ => cases hc
      | _ => trivial
    · rw [hnone] at h
      rcases h.enter fromString with ⟨g, hnext, hg, hafter⟩
      rw [hnext] at hentered
      rw [hentered hg]
      exact ⟨hannounced trivial, hafter⟩
    · rw [hone] at h
      cases c with
      | enter => exact absurd rfl henter
      | getLastUpdate now =>
          have hg : g = .entered := hallowed
          subst hg
          refine ⟨hannounced fun hmissed _ => h.announced nofun hmissed, ?_⟩
          rcases h.getLastUpdate fromString now with ⟨g, hnext, hg, hafter⟩
          rw [hnext] at hlater
          rw [hlater, readProgress_of_ne hg]
          exact hafter
      | fetch =>
          have hg : g = .due := hallowed
          subst hg
          rcases Unread.fetch htold with ⟨hnext, hafter⟩
          rw [hnext] at hlater
          rw [hlater]
          exact ⟨hannounced trivial, hafter⟩
      | leave =>
          have hg : g = .done := hallowed
          subst hg
          rw [hlater]
          exact ⟨hannounced trivial, h.leave⟩
      | showTime _ | now | get _ | getByName _ | insert _ | update _ _ => cases hc
      | delete _ | commit _ | createTask | startTask | startDisable => cases hc
      | setLastUpdate _ => cases hc

/-!
# Runs
-/

/-- Where changes are announced before their commits, every second read checks in time. -/
theorem announced_of_told {stored : StoredSchedulers} {clock : Nat} {lastUpdate : Option Nat}
    (hrun : Reaches (schedulerCalls fromString).step (ScheduledTold fromString)
      (SchedulerConfig.initial stored clock lastUpdate) cfg) :
    Reaches (schedulerCalls fromString).step ScheduledAnnounced
      (SchedulerConfig.initial stored clock lastUpdate) cfg := by
  suffices hkept : SchedulesKept fromString cfg ∧
      Unread cfg.shared (cfg.collect readProgress) ∧
      Reaches (schedulerCalls fromString).step ScheduledAnnounced
        (SchedulerConfig.initial stored clock lastUpdate) cfg from hkept.2.2
  induction hrun with
  | refl =>
      refine ⟨.initial stored clock lastUpdate, ?_, .refl⟩
      exact ⟨fun _ => .inr (.inl rfl), fun _ => .inl ⟨rfl, rfl⟩⟩
  | tail _ hcond hstep ih =>
      rcases ih with ⟨hkept, hunread, hbefore⟩
      rcases hunread.step hkept hcond hstep with ⟨hannounced, hafter⟩
      exact ⟨hkept.step ⟨hcond.1, hannounced⟩ hstep, hafter,
        hbefore.tail ⟨hcond.1, hannounced⟩ hstep⟩

/-- A row is created before the first read, and disabled between two checks. -/
example : exists cfg : SchedulerConfig,
    Reaches (schedulerCalls fun _ => true).step (ScheduledTold fun _ => true)
      (SchedulerConfig.initial noSchedulers 0 none) cfg ∧
    cfg.shared.beat.schedule = some [] :=
  exists_reaches _ _ _
    (createdAndRead ++ setClock 6 5000000 ++ [.start (.updateStatus 1)] ++ steps 7 4 ++
      [.start .updateChanged] ++ steps 8 3 ++ steps 7 1 ++ setClock 9 6000000 ++
      [.start .schedule] ++ steps 10 5)
    (fun cfg : SchedulerConfig => cfg.shared.beat.schedule = some []) (by decide +kernel)

end Schedules
end RagService
