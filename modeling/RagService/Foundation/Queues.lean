import Mathlib.Data.Nat.Init

/-!
# Bounded queues

`asyncio.Queue`: a queue with room for so many items, which also counts the items that have
been put and not yet been reported done.  `put` waits while it is full and `get` while it is
empty; `task_done` is without its `ValueError`.
-/

namespace RagService

structure AsyncQueue (α : Type) where
  /-- no bound if zero -/
  maxsize : Nat
  items : List α
  /-- `_unfinished_tasks` -/
  unfinished : Nat

namespace AsyncQueue

variable {α : Type}

def empty (maxsize : Nat) : AsyncQueue α :=
  ⟨maxsize, [], 0⟩

def full (q : AsyncQueue α) : Bool :=
  0 < q.maxsize ∧ q.maxsize ≤ q.items.length

def put (q : AsyncQueue α) (x : α) : Option (AsyncQueue α) :=
  if q.full then none
  else some { q with items := q.items ++ [x], unfinished := q.unfinished + 1 }

def get (q : AsyncQueue α) : Option (α × AsyncQueue α) :=
  match q.items with
  | [] => none
  | x :: rest => some (x, { q with items := rest })

def taskDone (q : AsyncQueue α) : Option (AsyncQueue α) :=
  if q.unfinished = 0 then none
  else some { q with unfinished := q.unfinished - 1 }

def tasksDone : Nat -> AsyncQueue α -> Option (AsyncQueue α)
  | 0, q => some q
  | n + 1, q => q.taskDone.bind (tasksDone n)

/-- The queue holds no more items than it has room for. -/
def Fits (q : AsyncQueue α) : Prop :=
  0 < q.maxsize -> q.items.length ≤ q.maxsize

variable {q q' : AsyncQueue α} {x : α}

theorem put_eq_some (h : q.put x = some q') :
    q' = { q with items := q.items ++ [x], unfinished := q.unfinished + 1 } := by
  unfold put at h
  split at h
  · cases h
  · exact (Option.some.inj h).symm

theorem get_eq_some (h : q.get = some (x, q')) :
    q.items = x :: q'.items ∧ q'.maxsize = q.maxsize ∧ q'.unfinished = q.unfinished := by
  unfold get at h
  split at h
  · cases h
  · rename_i y rest hitems
    cases h
    exact ⟨hitems, rfl, rfl⟩

theorem tasksDone_of_le {n : Nat} (h : n ≤ q.unfinished) :
    tasksDone n q = some { q with unfinished := q.unfinished - n } := by
  induction n generalizing q with
  | zero => rfl
  | succ n ih =>
      have hopen : q.unfinished ≠ 0 := by omega
      rw [tasksDone, taskDone, if_neg hopen, Option.bind_some, ih (by simp; omega)]
      simp only [Option.some.injEq, AsyncQueue.mk.injEq, true_and]
      omega

theorem fits_put (h : q.put x = some q') : q'.Fits := by
  intro hbound
  unfold AsyncQueue.put at h
  split at h
  · cases h
  · rename_i hroom
    cases h
    have hlt : ¬ q.maxsize ≤ q.items.length := by
      intro hle
      exact hroom (decide_eq_true ⟨hbound, hle⟩)
    simp only [List.length_append, List.length_singleton]
    omega

theorem Fits.get (hfits : q.Fits) (h : q.get = some (x, q')) : q'.Fits := by
  rcases get_eq_some h with ⟨hitems, hmax, -⟩
  intro hbound
  rw [hmax] at hbound ⊢
  have hle := hfits hbound
  rw [hitems, List.length_cons] at hle
  omega

end AsyncQueue
end RagService
