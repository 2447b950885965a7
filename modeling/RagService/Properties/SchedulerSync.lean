import RagService.Foundation.Transitions
import RagService.Scheduler.RunRecords

/-!
# Names that a sync loses

A name is popped before its record is saved.  When a save raises, the loop is left and the
popped name is among neither the dirty names nor the failed ones, although the message says
that it is tried again.
-/

namespace RagService
namespace RunRecords

open RagService.RunRecords.DatabaseScheduler

section

variable {s s' s'' : DatabaseScheduler} {script inner rest : Script} {name n : Text}
variable {failed failed' : List Text} {outcome : Outcome}

/-!
# Turns

The ways in which a turn ends, and the parts of a loop over a first turn.
-/

theorem pop_eq_some (h : s.pop name = some s') :
    name ∈ s.dirty ∧ s' = { s with dirty := s.dirty.filter (· ≠ name) } := by
  unfold pop at h
  split at h
  · rename_i hin
    exact ⟨hin, (Option.some.inj h).symm⟩
  · cases h

theorem mem_dirty_pop (h : s.pop name = some s') : n ∈ s'.dirty ↔ n ∈ s.dirty ∧ n ≠ name := by
  rw [(pop_eq_some h).2]
  exact List.mem_filter.trans (and_congr_right fun _ => decide_eq_true_iff)

theorem not_mem_dirty_pop (h : s.pop name = some s') : name ∉ s'.dirty :=
  fun hin => ((mem_dirty_pop h).mp hin).2 rfl

theorem mem_cons_dirty_pop (h : s.pop name = some s') :
    n ∈ name :: s'.dirty ↔ n ∈ s.dirty := by
  rw [List.mem_cons, mem_dirty_pop h]
  constructor
  · intro hn
    cases hn with
    | inl heq =>
        rw [heq]
        exact (pop_eq_some h).1
    | inr hin => exact hin.1
  · intro hn
    by_cases heq : n = name
    · exact .inl heq
    · exact .inr ⟨hn, heq⟩

theorem conclude_cases
    {loop : List Text -> DatabaseScheduler -> Option (List Text × DatabaseScheduler)} {last : Bool}
    {result : List Text × DatabaseScheduler}
    (h : conclude loop name outcome last failed s = some result) :
    (outcome = .saved ∧ exists model, s.entry name = some model ∧
        loop failed (s.save model false) = some result) ∨
      (outcome = .missing ∧ s.entry name = none ∧ loop (failed ++ [name]) s = some result) ∨
      (outcome.raises = true ∧ last = true ∧ result = (failed, s)) := by
  unfold conclude at h
  split at h
  · rename_i model hentry
    exact .inl ⟨rfl, model, hentry, h⟩
  · rename_i hentry
    exact .inr (.inl ⟨rfl, hentry, h⟩)
  · split at h
    · rename_i hlast
      exact .inr (.inr ⟨rfl, hlast, (Option.some.inj h).symm⟩)
    · cases h
  · split at h
    · rename_i hlast
      exact .inr (.inr ⟨rfl, hlast, (Option.some.inj h).symm⟩)
    · cases h
  · cases h

theorem syncLoop_turn (h : syncLoop (.turn name outcome rest) failed s = some (failed', s')) :
    exists s₁, s.pop name = some s₁ ∧
      conclude (syncLoop rest) name outcome (rest = .done) failed s₁ = some (failed', s') := by
  unfold syncLoop at h
  split at h
  · cases h
  · rename_i s₁ hpop
    split at h
    · cases h
    · exact ⟨s₁, hpop, h⟩

theorem syncLoop_reload {now : Nat}
    (h : syncLoop (.reload name inner now outcome rest) failed s = some (failed', s')) :
    exists s₁ innerFailed s₂ s₃, s.pop name = some s₁ ∧
      syncLoop inner [] s₁ = some (innerFailed, s₂) ∧
      (s₃ = s₂.retry innerFailed ∨ s₃ = (s₂.retry innerFailed).load now) ∧
      conclude (syncLoop rest) name outcome (rest = .done) failed s₃ = some (failed', s') := by
  unfold syncLoop at h
  split at h
  · cases h
  · rename_i s₁ hpop
    split at h
    · cases h
    · rename_i innerFailed s₂ hinner
      refine ⟨s₁, innerFailed, s₂, ?_⟩
      dsimp only at h
      split at h
      · exact ⟨_, hpop, hinner, .inl rfl, h⟩
      · exact ⟨_, hpop, hinner, .inr rfl, h⟩

/-!
# What a loop does to the names

A loop saves some names and finds that others have failed.  What a sync inside leaves to be
tried, and what is dirty after the schedule has been read again, was dirty when the loop began.
-/

structure Shrinks (saved failed failed' before after : List Text) : Prop where
  dirty : forall n, n ∈ after -> n ∈ before
  kept : forall n, n ∈ failed -> n ∈ failed'
  failures : forall n, n ∈ failed' -> n ∈ failed ∨ n ∈ before
  saved : forall n, n ∈ saved -> n ∈ before ∧ n ∉ after ∧ (n ∈ failed' -> n ∈ failed)

theorem Shrinks.saved_before {saved before after all : List Text}
    (h : Shrinks saved failed failed' before after) (more : List Text)
    (hbefore : forall n, n ∈ before -> n ∈ all) (hmore : forall n, n ∈ more -> n ∈ all ∧ n ∉ before) :
    Shrinks (more ++ saved) failed failed' all after where
  dirty := fun n hn => hbefore n (h.dirty n hn)
  kept := h.kept
  failures := fun n hn => (h.failures n hn).imp_right (hbefore n)
  saved := by
    intro n hn
    cases List.mem_append.mp hn with
    | inl hin =>
        rcases hmore n hin with ⟨hall, hnot⟩
        refine ⟨hall, fun hafter => hnot (h.dirty n hafter), ?_⟩
        intro hfailed
        exact (h.failures n hfailed).resolve_right hnot
    | inr hin =>
        rcases h.saved n hin with ⟨hin, hafter, hfailed⟩
        exact ⟨hbefore n hin, hafter, hfailed⟩

theorem shrinks_conclude (hname : name ∉ s.dirty) (hlast : rest = .done -> rest.saved = [])
    (hrest : forall {failed failed' s s'}, syncLoop rest failed s = some (failed', s') ->
      Shrinks rest.saved failed failed' s.dirty s'.dirty)
    (h : conclude (syncLoop rest) name outcome (rest = .done) failed s = some (failed', s')) :
    Shrinks (if outcome = .saved then name :: rest.saved else rest.saved) failed failed'
      (name :: s.dirty) s'.dirty := by
  rcases conclude_cases h with ⟨rfl, model, _, hloop⟩ | ⟨rfl, _, hloop⟩ | ⟨hraises, hdone, hresult⟩
  · have hshrinks := hrest hloop
    have hsame : (s.save model false).dirty = s.dirty := rfl
    rw [hsame] at hshrinks
    rw [if_pos rfl]
    constructor
    · exact fun n hn => .tail _ (hshrinks.dirty n hn)
    · exact hshrinks.kept
    · intro n hn
      exact (hshrinks.failures n hn).imp_right (.tail _)
    · intro n hn
      cases List.mem_cons.mp hn with
      | inl heq =>
          rw [heq]
          refine ⟨.head _, fun hin => hname (hshrinks.dirty name hin), ?_⟩
          intro hin
          exact (hshrinks.failures name hin).resolve_right hname
      | inr hin =>
          rcases hshrinks.saved n hin with ⟨hbefore, hafter, hfailed⟩
          exact ⟨.tail _ hbefore, hafter, hfailed⟩
  · have hshrinks := hrest hloop
    rw [if_neg (by decide)]
    constructor
    · exact fun n hn => .tail _ (hshrinks.dirty n hn)
    · exact fun n hn => hshrinks.kept n (List.mem_append_left _ hn)
    · intro n hn
      cases hshrinks.failures n hn with
      | inl hin =>
          cases List.mem_append.mp hin with
          | inl hold => exact .inl hold
          | inr hnew =>
              rw [List.mem_singleton.mp hnew]
              exact .inr (.head _)
      | inr hin => exact .inr (.tail _ hin)
    · intro n hn
      rcases hshrinks.saved n hn with ⟨hbefore, hafter, hfailed⟩
      refine ⟨.tail _ hbefore, hafter, ?_⟩
      intro hin
      cases List.mem_append.mp (hfailed hin) with
      | inl hold => exact hold
      | inr hnew =>
          rw [List.mem_singleton.mp hnew] at hbefore
          exact absurd hbefore hname
  · rw [Prod.mk.injEq] at hresult
    rcases hresult with ⟨rfl, rfl⟩
    have hsaved : (if outcome = .saved then name :: rest.saved else rest.saved) = [] := by
      rw [if_neg, hlast (of_decide_eq_true hdone)]
      intro heq
      rw [heq] at hraises
      cases hraises
    rw [hsaved]
    exact ⟨fun n hn => .tail _ hn, fun n hn => hn, fun n hn => .inl hn, nofun⟩

theorem saved_of_done (h : rest = .done) : rest.saved = [] := by
  rw [h]
  rfl

theorem Shrinks.mem_of_left {saved before after : List Text}
    (h : Shrinks saved [] failed before after) (hn : n ∈ after ++ failed) : n ∈ before := by
  cases List.mem_append.mp hn with
  | inl hin => exact h.dirty n hin
  | inr hin => exact (h.failures n hin).resolve_left List.not_mem_nil

theorem Shrinks.not_left_of_saved {saved before after : List Text}
    (h : Shrinks saved [] failed before after) (hn : n ∈ saved) : n ∉ after ++ failed := by
  intro hleft
  rcases h.saved n hn with ⟨_, hafter, hfailed⟩
  cases List.mem_append.mp hleft with
  | inl hin => exact hafter hin
  | inr hin => exact List.not_mem_nil (hfailed hin)

theorem dirty_reload {now : Nat} {s₂ s₃ : DatabaseScheduler} {innerFailed : List Text}
    (h : s₃ = s₂.retry innerFailed ∨ s₃ = (s₂.retry innerFailed).load now) :
    s₃.dirty = s₂.dirty ++ innerFailed := by
  cases h with
  | inl heq => rw [heq]; rfl
  | inr heq => rw [heq]; rfl

theorem Shrinks.reloaded {now : Nat} {saved innerFailed : List Text}
    {s₁ s₂ s₃ : DatabaseScheduler} (h : Shrinks saved [] innerFailed s₁.dirty s₂.dirty)
    (hpop : s.pop name = some s₁)
    (hs₃ : s₃ = s₂.retry innerFailed ∨ s₃ = (s₂.retry innerFailed).load now) :
    (forall n, n ∈ s₃.dirty -> n ∈ s₁.dirty) ∧ name ∉ s₃.dirty ∧
      forall n, n ∈ saved -> n ∉ name :: s₃.dirty := by
  have hleft : forall n, n ∈ s₃.dirty -> n ∈ s₁.dirty := by
    intro n hn
    rw [dirty_reload hs₃] at hn
    exact h.mem_of_left hn
  refine ⟨hleft, fun hin => not_mem_dirty_pop hpop (hleft name hin), ?_⟩
  intro n hn hcons
  cases List.mem_cons.mp hcons with
  | inl heq => exact ((mem_dirty_pop hpop).mp (h.saved n hn).1).2 heq
  | inr hthere =>
      rw [dirty_reload hs₃] at hthere
      exact h.not_left_of_saved hn hthere

theorem shrinks_syncLoop (h : syncLoop script failed s = some (failed', s')) :
    Shrinks script.saved failed failed' s.dirty s'.dirty := by
  induction script generalizing failed failed' s s' with
  | done =>
      unfold syncLoop at h
      split at h
      · cases h
        exact ⟨fun n hn => hn, fun n hn => hn, fun n hn => .inl hn, nofun⟩
      · cases h
  | turn name outcome rest ih =>
      rcases syncLoop_turn h with ⟨s₁, hpop, hconclude⟩
      have hshrinks := shrinks_conclude (not_mem_dirty_pop hpop) saved_of_done ih hconclude
      exact hshrinks.saved_before [] (fun n hn => (mem_cons_dirty_pop hpop).mp hn)
        fun n hn => absurd hn List.not_mem_nil
  | reload name inner now outcome rest ihinner ih =>
      rcases syncLoop_reload h with ⟨s₁, innerFailed, s₂, s₃, hpop, hinner, hs₃, hconclude⟩
      have hwithin := ihinner hinner
      rcases hwithin.reloaded hpop hs₃ with ⟨hleft, hname, hapart⟩
      have hshrinks := shrinks_conclude hname saved_of_done ih hconclude
      apply hshrinks.saved_before inner.saved
      · intro n hn
        exact (mem_cons_dirty_pop hpop).mp (List.cons_subset_cons name hleft hn)
      · intro n hn
        exact ⟨((mem_dirty_pop hpop).mp (hwithin.saved n hn).1).1, hapart n hn⟩

structure Treated (saved failed' before after : List Text) : Prop where
  none_left : after = []
  treated : forall n, n ∈ before -> n ∈ saved ∨ n ∈ failed'

theorem treated_conclude (houtcome : outcome.raises = false)
    (hrest : forall {failed failed' s s'}, syncLoop rest failed s = some (failed', s') ->
      Treated rest.saved failed' s.dirty s'.dirty)
    (h : conclude (syncLoop rest) name outcome (rest = .done) failed s = some (failed', s')) :
    Treated (if outcome = .saved then name :: rest.saved else rest.saved) failed'
      (name :: s.dirty) s'.dirty := by
  rcases conclude_cases h with ⟨rfl, model, _, hloop⟩ | ⟨rfl, _, hloop⟩ | ⟨hraises, _, _⟩
  · rcases hrest hloop with ⟨hnone, htreated⟩
    refine ⟨hnone, ?_⟩
    intro n hn
    rw [if_pos rfl]
    cases List.mem_cons.mp hn with
    | inl heq => exact .inl (List.mem_cons.mpr (.inl heq))
    | inr hin => exact (htreated n hin).imp_left (.tail _)
  · rcases hrest hloop with ⟨hnone, htreated⟩
    refine ⟨hnone, ?_⟩
    intro n hn
    rw [if_neg (by decide)]
    cases List.mem_cons.mp hn with
    | inl heq =>
        rw [heq]
        exact .inr ((shrinks_syncLoop hloop).kept name
          (List.mem_append_right _ (List.mem_singleton.mpr rfl)))
    | inr hin => exact htreated n hin
  · rw [houtcome] at hraises
    cases hraises

theorem treated_syncLoop (h : syncLoop script failed s = some (failed', s'))
    (hraises : script.raises = false) : Treated script.saved failed' s.dirty s'.dirty := by
  induction script generalizing failed failed' s s' with
  | done =>
      unfold syncLoop at h
      split at h
      · rename_i hempty
        cases h
        rw [hempty]
        exact ⟨rfl, nofun⟩
      · cases h
  | turn name outcome rest ih =>
      rcases (Bool.or_eq_false_iff ..).mp hraises with ⟨houtcome, hrest⟩
      rcases syncLoop_turn h with ⟨s₁, hpop, hconclude⟩
      have htreated := treated_conclude houtcome (fun hloop => ih hloop hrest) hconclude
      exact ⟨htreated.none_left,
        fun n hn => htreated.treated n ((mem_cons_dirty_pop hpop).mpr hn)⟩
  | reload name inner now outcome rest ihinner ih =>
      rcases (Bool.or_eq_false_iff ..).mp hraises with ⟨hboth, hrest⟩
      rcases (Bool.or_eq_false_iff ..).mp hboth with ⟨hinnerRaises, houtcome⟩
      rcases syncLoop_reload h with ⟨s₁, innerFailed, s₂, s₃, hpop, hinner, hs₃, hconclude⟩
      have hwithin := ihinner hinner hinnerRaises
      have htreated := treated_conclude houtcome (fun hloop => ih hloop hrest) hconclude
      refine ⟨htreated.none_left, ?_⟩
      intro n hn
      have hlater : n ∈ name :: s₃.dirty ->
          n ∈ (Script.reload name inner now outcome rest).saved ∨ n ∈ failed' := by
        intro hin
        exact (htreated.treated n hin).imp_left (List.mem_append_right _)
      cases List.mem_cons.mp ((mem_cons_dirty_pop hpop).mpr hn) with
      | inl heq => exact hlater (List.mem_cons.mpr (.inl heq))
      | inr hin =>
          cases hwithin.treated n hin with
          | inl hsaved => exact .inl (List.mem_append_left _ hsaved)
          | inr hfailed =>
              apply hlater
              rw [dirty_reload hs₃]
              exact .tail _ (List.mem_append_right _ hfailed)

/-!
# Names that are lost

An exception loses a name; without one each dirty name is saved or has failed when the loop
ends.
-/

structure Lost (saved failed failed' before after : List Text) (n : Text) : Prop where
  dirty : n ∈ before
  unsaved : n ∉ saved
  clean : n ∉ after
  dropped : n ∈ failed' -> n ∈ failed

theorem lost_conclude (hname : name ∉ s.dirty)
    (hrest : forall {failed failed' s s'}, syncLoop rest failed s = some (failed', s') ->
      rest.raises = true -> exists n, Lost rest.saved failed failed' s.dirty s'.dirty n)
    (hraises : outcome.raises = true ∨ rest.raises = true)
    (h : conclude (syncLoop rest) name outcome (rest = .done) failed s = some (failed', s')) :
    exists n, Lost (if outcome = .saved then name :: rest.saved else rest.saved) failed failed'
      (name :: s.dirty) s'.dirty n := by
  rcases conclude_cases h with ⟨rfl, model, _, hloop⟩ | ⟨rfl, _, hloop⟩ | ⟨houtcome, hdone, hresult⟩
  · rcases hrest hloop (hraises.resolve_left nofun) with ⟨n, hlost⟩
    have hdirty : n ∈ s.dirty := hlost.dirty
    refine ⟨n, .tail _ hdirty, ?_, hlost.clean, hlost.dropped⟩
    rw [if_pos rfl]
    intro hin
    cases List.mem_cons.mp hin with
    | inl heq =>
        rw [heq] at hdirty
        exact hname hdirty
    | inr hsaved => exact hlost.unsaved hsaved
  · rcases hrest hloop (hraises.resolve_left nofun) with ⟨n, hlost⟩
    refine ⟨n, .tail _ hlost.dirty, hlost.unsaved, hlost.clean, ?_⟩
    intro hin
    cases List.mem_append.mp (hlost.dropped hin) with
    | inl hold => exact hold
    | inr hnew =>
        have hdirty := hlost.dirty
        rw [List.mem_singleton.mp hnew] at hdirty
        exact absurd hdirty hname
  · rw [Prod.mk.injEq] at hresult
    rcases hresult with ⟨rfl, rfl⟩
    refine ⟨name, .head _, ?_, hname, fun hin => hin⟩
    rw [if_neg, saved_of_done (of_decide_eq_true hdone)]
    · exact List.not_mem_nil
    · intro heq
      rw [heq] at houtcome
      cases houtcome

/-- An exception loses a name. -/
theorem lost_syncLoop (h : syncLoop script failed s = some (failed', s'))
    (hraises : script.raises = true) :
    exists n, Lost script.saved failed failed' s.dirty s'.dirty n := by
  induction script generalizing failed failed' s s' with
  | done => cases hraises
  | turn name outcome rest ih =>
      rcases syncLoop_turn h with ⟨s₁, hpop, hconclude⟩
      rcases lost_conclude (not_mem_dirty_pop hpop) ih ((Bool.or_eq_true ..).mp hraises) hconclude
        with ⟨n, hlost⟩
      exact ⟨n, (mem_cons_dirty_pop hpop).mp hlost.dirty, hlost.unsaved, hlost.clean,
        hlost.dropped⟩
  | reload name inner now outcome rest ihinner ih =>
      rcases syncLoop_reload h with ⟨s₁, innerFailed, s₂, s₃, hpop, hinner, hs₃, hconclude⟩
      have hwithin := shrinks_syncLoop hinner
      rcases hwithin.reloaded hpop hs₃ with ⟨hleft, hname, hapart⟩
      by_cases hinnerRaises : inner.raises = true
      · -- the sync inside has lost a name, which is not dirty afterwards
        rcases ihinner hinner hinnerRaises with ⟨n, hlost⟩
        have hshrinks := shrinks_conclude hname saved_of_done (fun h => shrinks_syncLoop h)
          hconclude
        have hgone : n ∉ name :: s₃.dirty := by
          intro hin
          cases List.mem_cons.mp hin with
          | inl heq => exact ((mem_dirty_pop hpop).mp hlost.dirty).2 heq
          | inr hthere =>
              rw [dirty_reload hs₃] at hthere
              cases List.mem_append.mp hthere with
              | inl hafter => exact hlost.clean hafter
              | inr hfailed => exact List.not_mem_nil (hlost.dropped hfailed)
        refine ⟨n, ((mem_dirty_pop hpop).mp hlost.dirty).1, ?_, ?_, ?_⟩
        · intro hin
          cases List.mem_append.mp hin with
          | inl hsaved => exact hlost.unsaved hsaved
          | inr hsaved => exact hgone (hshrinks.saved n hsaved).1
        · exact fun hin => hgone (hshrinks.dirty n hin)
        · exact fun hin => (hshrinks.failures n hin).resolve_right hgone
      · have hlater : outcome.raises = true ∨ rest.raises = true := by
          cases (Bool.or_eq_true ..).mp hraises with
          | inl hboth =>
              exact .inl (((Bool.or_eq_true ..).mp hboth).resolve_left hinnerRaises)
          | inr hrest => exact .inr hrest
        rcases lost_conclude hname ih hlater hconclude with ⟨n, hlost⟩
        refine ⟨n, ?_, ?_, hlost.clean, hlost.dropped⟩
        · exact (mem_cons_dirty_pop hpop).mp (List.cons_subset_cons name hleft hlost.dirty)
        · intro hin
          cases List.mem_append.mp hin with
          | inr hsaved => exact hlost.unsaved hsaved
          | inl hsaved => exact hapart n hsaved hlost.dirty

/-- A sync keeps the names that it has not saved exactly when nothing raises. -/
theorem sync_keeps_iff (h : s.sync script = some s') :
    (forall n, n ∈ s.dirty -> n ∉ script.saved -> n ∈ s'.dirty) ↔ script.raises = false := by
  unfold sync at h
  rcases Option.map_eq_some_iff.mp h with ⟨⟨failed, last⟩, hloop, heq⟩
  have hdirty : s'.dirty = last.dirty ++ failed := by
    rw [← heq]
    rfl
  constructor
  · intro hkeeps
    rw [Bool.eq_false_iff]
    intro hraises
    rcases lost_syncLoop hloop hraises with ⟨n, hlost⟩
    have hin := hkeeps n hlost.dirty hlost.unsaved
    rw [hdirty] at hin
    cases List.mem_append.mp hin with
    | inl hclean => exact hlost.clean hclean
    | inr hdropped => exact List.not_mem_nil (hlost.dropped hdropped)
  · intro hraises n hn hunsaved
    rw [hdirty]
    exact List.mem_append_right _ (((treated_syncLoop hloop hraises).treated n hn).resolve_left
      hunsaved)

end

end RunRecords
end RagService
