import Mathlib.Data.List.Basic
import Mathlib.Data.List.Nodup

/-!
# Exit stacks

Contexts are entered one after the other and left in the opposite order.  When one cannot be
entered, or the body raises, those that have been entered are left all the same, and so they
are when leaving one of them raises.
-/

namespace RagService
namespace ExitStack

variable {ι Exn Value : Type}

/-- What comes of entering a context, and of leaving it with the exception in flight. -/
structure Context (Exn Value : Type) where
  enter : Except Exn Value
  /-- another exception, or whether the one in flight is suppressed -/
  exit : Option Exn -> Except Exn Bool

inductive Event (ι : Type) where
  | entered (i : ι)
  /-- the context raises when it is to be entered -/
  | refused (i : ι)
  /-- the body of the statement -/
  | served
  | exited (i : ι)
  deriving DecidableEq

/-- What has been done, the contexts to be left and the values of those that were entered. -/
structure Entering (ι Exn Value : Type) where
  events : List (Event ι)
  stack : List ι
  values : List Value
  failure : Option Exn

def enterAll (contexts : ι -> Context Exn Value) : List ι -> List ι -> Entering ι Exn Value
  | [], stack => ⟨[], stack, [], none⟩
  | i :: rest, stack =>
      match (contexts i).enter with
      | .error e => ⟨[.refused i], stack, [], some e⟩
      | .ok v =>
          let out := enterAll contexts rest (i :: stack)
          { out with events := .entered i :: out.events, values := v :: out.values }

structure Leaving (Exn : Type) where
  exc : Option Exn
  suppressed : Bool
  pendingRaise : Bool

def Context.leave (c : Context Exn Value) (l : Leaving Exn) : Leaving Exn :=
  match c.exit l.exc with
  | .ok true => ⟨none, true, false⟩
  | .ok false => l
  | .error e => ⟨some e, l.suppressed, true⟩

def unwind (contexts : ι -> Context Exn Value) :
    List ι -> Leaving Exn -> List (Event ι) × Leaving Exn
  | [], l => ([], l)
  | i :: rest, l =>
      let out := unwind contexts rest ((contexts i).leave l)
      (.exited i :: out.1, out.2)

/-- `__aexit__`: what it raises, or whether it suppresses the exception that it is given. -/
def aexit (contexts : ι -> Context Exn Value) (stack : List ι) (received : Option Exn) :
    List (Event ι) × Except Exn Bool :=
  let out := unwind contexts stack ⟨received, false, false⟩
  (out.1,
    match out.2.pendingRaise, out.2.exc with
    | true, some e => .error e
    | _, _ => .ok (received.isSome && out.2.suppressed))

/-- What a statement does that enters some contexts and then those that are left. -/
def trace (entered : List ι) (middle : Event ι) : List (Event ι) :=
  entered.map Event.entered ++ middle :: entered.reverse.map Event.exited

/-- The contexts are entered in this order, all of them or up to one that raises. -/
inductive Brackets (all : List ι) : List (Event ι) -> Prop
  | served : Brackets all (trace all .served)
  | refused {entered later : List ι} {i : ι} (h : all = entered ++ i :: later) :
      Brackets all (trace entered (.refused i))

/-!
# Statements

What a statement does is what entering and leaving the contexts does, and what it raises.
-/

section

variable {contexts : ι -> Context Exn Value} {all stack : List ι}

theorem unwind_events (l : Leaving Exn) :
    (unwind contexts stack l).1 = stack.map Event.exited := by
  induction stack generalizing l with
  | nil => rfl
  | cons i rest ih => exact congrArg (List.cons (Event.exited i)) (ih _)

theorem enterAll_served (h : (enterAll contexts all stack).failure = none) :
    (enterAll contexts all stack).events = all.map Event.entered ∧
      (enterAll contexts all stack).stack = all.reverse ++ stack := by
  induction all generalizing stack with
  | nil => exact ⟨rfl, rfl⟩
  | cons i rest ih =>
      unfold enterAll at h ⊢
      split at h
      · cases h
      · rename_i v hv
        rcases ih h with ⟨hevents, hstack⟩
        dsimp only
        constructor
        · rw [hevents, List.map_cons]
        · rw [hstack]
          simp

theorem enterAll_refused {e : Exn} (h : (enterAll contexts all stack).failure = some e) :
    exists entered i later, all = entered ++ i :: later ∧ (contexts i).enter = .error e ∧
      (enterAll contexts all stack).events = entered.map Event.entered ++ [.refused i] ∧
      (enterAll contexts all stack).stack = entered.reverse ++ stack := by
  induction all generalizing stack with
  | nil => cases h
  | cons i rest ih =>
      unfold enterAll at h ⊢
      split at h
      · rename_i e' he
        cases h
        exact ⟨[], i, rest, rfl, he, rfl, rfl⟩
      · rename_i v hv
        rcases ih h with ⟨entered, j, later, rfl, hj, hevents, hstack⟩
        refine ⟨i :: entered, j, later, rfl, hj, ?_, ?_⟩
        · dsimp only
          rw [hevents]
          rfl
        · dsimp only
          rw [hstack]
          simp

theorem brackets_served (received : Option Exn)
    (h : (enterAll contexts all []).failure = none) :
    Brackets all ((enterAll contexts all []).events ++ .served ::
      (aexit contexts (enterAll contexts all []).stack received).1) := by
  rcases enterAll_served h with ⟨hevents, hstack⟩
  unfold aexit
  dsimp only
  rw [unwind_events, hevents, hstack, List.append_nil]
  exact .served

theorem brackets_refused {e : Exn} (h : (enterAll contexts all []).failure = some e) :
    Brackets all ((enterAll contexts all []).events ++
      (aexit contexts (enterAll contexts all []).stack (some e)).1) := by
  rcases enterAll_refused h with ⟨entered, i, later, hall, -, hevents, hstack⟩
  unfold aexit
  dsimp only
  rw [unwind_events, hevents, hstack, List.append_nil, List.append_assoc]
  exact .refused hall

end

/-!
# Traces

What comes before a context is entered, before it raises when it is to be entered, and before
it is left.
-/

section

variable {entered : List ι} {middle : Event ι} {pre post : List (Event ι)} {i : ι}

theorem mem_trace {x : Event ι} : x ∈ trace entered middle ↔
    (exists i, i ∈ entered ∧ x = .entered i) ∨ x = middle ∨
      exists i, i ∈ entered ∧ x = .exited i := by
  simp [trace, eq_comm]

theorem before_entered (hmiddle : middle ≠ .entered i)
    (h : trace entered middle = pre ++ .entered i :: post) :
    exists earlier later, entered = earlier ++ i :: later ∧ pre = earlier.map Event.entered := by
  unfold trace at h
  rcases List.append_eq_append_iff.mp h with ⟨rest, hpre, hrest⟩ | ⟨rest, hentered, hrest⟩
  · have hmem : Event.entered i ∈ middle :: entered.reverse.map Event.exited := by
      rw [hrest]
      exact List.mem_append_right _ List.mem_cons_self
    cases List.mem_cons.mp hmem with
    | inl heq => exact absurd heq.symm hmiddle
    | inr hexit =>
        rcases List.mem_map.mp hexit with ⟨_, -, heq⟩
        cases heq
  · cases rest with
    | nil => exact absurd (List.cons.inj hrest).1.symm hmiddle
    | cons x rest =>
        rcases List.cons.inj hrest with ⟨rfl, -⟩
        rcases List.map_eq_append_iff.mp hentered with ⟨earlier, tail, rfl, rfl, htail⟩
        rcases List.map_eq_cons_iff.mp htail with ⟨_, later, rfl, heq, -⟩
        cases heq
        exact ⟨earlier, later, rfl, rfl⟩

theorem before_refused (h : trace entered (.refused i) = pre ++ .refused i :: post) :
    pre = entered.map Event.entered := by
  unfold trace at h
  rcases List.append_eq_append_iff.mp h with ⟨rest, hpre, hrest⟩ | ⟨rest, hentered, hrest⟩
  · cases rest with
    | nil => rw [hpre, List.append_nil]
    | cons x rest =>
        have hmem : Event.refused i ∈ entered.reverse.map Event.exited := by
          rw [(List.cons.inj hrest).2]
          exact List.mem_append_right _ List.mem_cons_self
        rcases List.mem_map.mp hmem with ⟨_, -, heq⟩
        cases heq
  · cases rest with
    | nil => rw [hentered, List.append_nil]
    | cons x rest =>
        rcases List.cons.inj hrest with ⟨rfl, -⟩
        have hmem : Event.refused i ∈ entered.map Event.entered := by
          rw [hentered]
          exact List.mem_append_right _ List.mem_cons_self
        rcases List.mem_map.mp hmem with ⟨_, -, heq⟩
        cases heq

theorem before_exited (hmiddle : middle ≠ .exited i)
    (h : trace entered middle = pre ++ .exited i :: post) :
    exists earlier later, entered = earlier ++ i :: later ∧
      pre = entered.map Event.entered ++ middle :: later.reverse.map Event.exited := by
  unfold trace at h
  rcases List.append_eq_append_iff.mp h with ⟨rest, hpre, hrest⟩ | ⟨rest, hentered, hrest⟩
  · cases rest with
    | nil => exact absurd (List.cons.inj hrest).1 hmiddle
    | cons x rest =>
        rcases List.cons.inj hrest with ⟨rfl, hexits⟩
        rcases List.map_eq_append_iff.mp hexits with ⟨later, tail, hreverse, rfl, htail⟩
        rcases List.map_eq_cons_iff.mp htail with ⟨_, earlier, rfl, heq, -⟩
        cases heq
        refine ⟨earlier.reverse, later.reverse, ?_, ?_⟩
        · have hback := congrArg List.reverse hreverse
          rw [List.reverse_reverse] at hback
          rw [hback]
          simp
        · rw [hpre, List.reverse_reverse]
  · cases rest with
    | nil => exact absurd (List.cons.inj hrest).1.symm hmiddle
    | cons x rest =>
        rcases List.cons.inj hrest with ⟨rfl, -⟩
        have hmem : Event.exited i ∈ entered.map Event.entered := by
          rw [hentered]
          exact List.mem_append_right _ List.mem_cons_self
        rcases List.mem_map.mp hmem with ⟨_, -, heq⟩
        cases heq

end

/-!
# Brackets

The contexts that are entered come first in the order, and each of them is left: a later one is
tried after an earlier one has been entered, and left before that one is.  The body runs after
all contexts are entered and before any is left.
-/

/-- One context is inside another: it is tried later, and left before. -/
structure Nested (t : List (Event ι)) (outer inner : ι) : Prop where
  started : forall pre x post, t = pre ++ x :: post ->
    x = .entered inner ∨ x = .refused inner -> .entered outer ∈ pre
  stopped : forall pre post, t = pre ++ .exited outer :: post -> .entered inner ∈ t ->
    .exited inner ∈ pre

namespace Brackets

variable {all : List ι} {t pre post : List (Event ι)} {i j : ι}

theorem shape (h : Brackets all t) : exists entered middle rest, t = trace entered middle ∧
    all = entered ++ rest ∧ (forall i, middle ≠ .entered i) ∧ (forall i, middle ≠ .exited i) ∧
      forall i, middle = .refused i -> exists later, rest = i :: later := by
  cases h with
  | served =>
      refine ⟨all, .served, [], rfl, (List.append_nil all).symm, nofun, nofun, nofun⟩
  | @refused entered later i h =>
      refine ⟨entered, .refused i, i :: later, rfl, h, nofun, nofun, ?_⟩
      intro j heq
      cases heq
      exact ⟨later, rfl⟩

theorem mem_before {C D : List ι} (hnodup : all.Nodup) (hij : [i, j].Sublist all)
    (h : all = C ++ j :: D) : i ∈ C := by
  subst h
  rcases List.sublist_append_iff.mp hij with ⟨first, second, heq, hfirst, hsecond⟩
  cases first with
  | nil =>
      have hmem : j ∈ D := by
        have hsub : [i, j].Sublist (j :: D) := heq ▸ hsecond
        cases hsub with
        | cons _ hsub => exact hsub.subset (List.mem_cons_of_mem _ List.mem_cons_self)
        | cons_cons _ hsub => exact hsub.subset List.mem_cons_self
      exact absurd hmem (List.nodup_cons.mp (List.nodup_append.mp hnodup).2.1).1
  | cons x rest =>
      rw [(List.cons.inj heq).1]
      exact hfirst.subset List.mem_cons_self

theorem enters_first (h : Brackets all t) (hnodup : all.Nodup) (hij : [i, j].Sublist all)
    {x : Event ι} (hx : x = .entered j ∨ x = .refused j) (ht : t = pre ++ x :: post) :
    .entered i ∈ pre := by
  rcases h.shape with ⟨entered, middle, rest, rfl, hall, hnone, -, hrefused⟩
  cases hx with
  | inl hx =>
      subst hx
      rcases before_entered (hnone j) ht with ⟨earlier, later, rfl, rfl⟩
      apply List.mem_map_of_mem
      apply mem_before hnodup hij
      rw [hall, List.append_assoc, List.cons_append]
  | inr hx =>
      subst hx
      have hmem : Event.refused j ∈ trace entered middle := by
        rw [ht]
        exact List.mem_append_right _ List.mem_cons_self
      rcases mem_trace.mp hmem with ⟨_, -, heq⟩ | heq | ⟨_, -, heq⟩
      · cases heq
      · rcases hrefused j heq.symm with ⟨later, rfl⟩
        rw [← heq] at ht
        rw [before_refused ht]
        exact List.mem_map_of_mem (mem_before hnodup hij hall)
      · cases heq

/-- A later context that was entered has been left before an earlier one is. -/
theorem exits_last (h : Brackets all t) (hnodup : all.Nodup) (hij : [i, j].Sublist all)
    (ht : t = pre ++ .exited i :: post) (hj : .entered j ∈ t) : .exited j ∈ pre := by
  rcases h.shape with ⟨entered, middle, rest, rfl, hall, hnone, hnone', -⟩
  rcases before_exited (hnone' i) ht with ⟨earlier, later, rfl, rfl⟩
  have hmem : j ∈ earlier ++ i :: later := by
    rcases mem_trace.mp hj with ⟨_, hmem, heq⟩ | heq | ⟨_, -, heq⟩
    · cases heq
      exact hmem
    · exact absurd heq.symm (hnone j)
    · cases heq
  have hlater : j ∈ later := by
    rcases List.mem_append.mp hmem with hearlier | hlater
    · rcases List.mem_iff_append.mp hearlier with ⟨E, F, rfl⟩
      have hi : i ∈ E := by
        refine mem_before (D := F ++ i :: (later ++ rest)) hnodup hij ?_
        rw [hall]
        simp
      rw [hall] at hnodup
      have hapart := List.disjoint_of_nodup_append (List.nodup_append.mp hnodup).1
      exact (hapart (List.mem_append_left _ hi) List.mem_cons_self).elim
    · cases List.mem_cons.mp hlater with
      | inl heq =>
          rw [heq] at hij
          have hsame := hnodup.sublist hij
          simp at hsame
      | inr hlater => exact hlater
  refine List.mem_append_right _ (List.mem_cons_of_mem _ (List.mem_map_of_mem ?_))
  exact List.mem_reverse.mpr hlater

theorem nested (h : Brackets all t) (hnodup : all.Nodup) (hij : [i, j].Sublist all) :
    Nested t i j := by
  constructor
  · intro pre x post ht hx
    exact h.enters_first hnodup hij hx ht
  · intro pre post ht hj
    exact h.exits_last hnodup hij ht hj

theorem exited_iff (h : Brackets all t) : .exited i ∈ t ↔ .entered i ∈ t := by
  rcases h.shape with ⟨entered, middle, rest, rfl, -, hnone, hnone', -⟩
  rw [mem_trace, mem_trace]
  constructor
  · intro hmem
    rcases hmem with ⟨_, -, heq⟩ | heq | ⟨j, hj, heq⟩
    · cases heq
    · exact absurd heq.symm (hnone' i)
    · cases heq
      exact .inl ⟨i, hj, rfl⟩
  · intro hmem
    rcases hmem with ⟨j, hj, heq⟩ | heq | ⟨_, -, heq⟩
    · cases heq
      exact .inr (.inr ⟨i, hj, rfl⟩)
    · exact absurd heq.symm (hnone i)
    · cases heq

/-- The body runs after all contexts are entered and before any is left. -/
theorem served_inside (h : Brackets all t) (ht : t = pre ++ .served :: post) (hi : i ∈ all) :
    .entered i ∈ pre ∧ .exited i ∈ post := by
  cases h with
  | served =>
      have hentered : Event.served ∉ all.map Event.entered := by
        intro hmem
        rcases List.mem_map.mp hmem with ⟨_, -, heq⟩
        cases heq
      have hexited : Event.served ∉ all.reverse.map Event.exited := by
        intro hmem
        rcases List.mem_map.mp hmem with ⟨_, -, heq⟩
        cases heq
      rcases (List.append_cons_inj_of_notMem hentered hexited).mp ht with ⟨rfl, -, rfl⟩
      constructor
      · exact List.mem_map_of_mem hi
      · exact List.mem_map_of_mem (List.mem_reverse.mpr hi)
  | refused hall =>
      have hserved : Event.served ∈ pre ++ .served :: post :=
        List.mem_append_right _ List.mem_cons_self
      rw [← ht] at hserved
      rcases mem_trace.mp hserved with ⟨_, -, heq⟩ | heq | ⟨_, -, heq⟩
      · cases heq
      · cases heq
      · cases heq

theorem nodup (h : Brackets all t) (hnodup : all.Nodup) : t.Nodup := by
  rcases h.shape with ⟨entered, middle, rest, rfl, hall, hnone, hnone', -⟩
  rw [hall] at hnodup
  have hentered := (List.nodup_append.mp hnodup).1
  unfold trace
  rw [List.nodup_append]
  refine ⟨hentered.map fun _ _ heq => Event.entered.inj heq, ?_, ?_⟩
  · rw [List.nodup_cons]
    constructor
    · intro hmem
      rcases List.mem_map.mp hmem with ⟨i, -, heq⟩
      exact hnone' i heq.symm
    · exact (List.nodup_reverse.mpr hentered).map fun _ _ heq => Event.exited.inj heq
  · intro x hx y hy heq
    rcases List.mem_map.mp hx with ⟨i, -, rfl⟩
    cases List.mem_cons.mp hy with
    | inl hmiddle => exact hnone i (hmiddle.symm.trans heq.symm)
    | inr hexit =>
        rcases List.mem_map.mp hexit with ⟨j, -, rfl⟩
        cases heq

end Brackets

end ExitStack
end RagService
