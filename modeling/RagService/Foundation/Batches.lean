import Mathlib.Data.Nat.Count

/-!
# Serving a queue in batches

Tickets wait in the order of their numbers, and a round serves the first few of them.  A
ticket that is served and still waits has been tried once more, and it waits no longer when
it has been tried often enough.  Then the number of rounds in which every ticket of a queue
stops waiting is bounded, however many larger tickets arrive in the meantime.
-/

namespace RagService
namespace Batches

/-!
# The first few

A number is among the first few that have a property when few smaller ones have it.
-/

theorem count_filter (p : Nat -> Prop) [DecidablePred p] (limit i : Nat) :
    Nat.count (fun j => p j ∧ limit ≤ Nat.count p j) i = Nat.count p i - limit := by
  induction i with
  | zero => simp
  | succ i ih =>
      rw [Nat.count_succ, Nat.count_succ, ih]
      by_cases hi : p i
      · by_cases hlimit : limit ≤ Nat.count p i
        · simp only [hi, hlimit, and_self, if_true]
          omega
        · simp only [hi, hlimit, and_false, if_true, if_false]
          omega
      · simp [hi]

theorem mem_take_filter_range (p : Nat -> Bool) (limit n i : Nat) :
    i ∈ ((List.range n).filter p).take limit ↔
      i < n ∧ p i = true ∧ Nat.count (fun j => p j = true) i < limit := by
  induction n with
  | zero => simp
  | succ n ih =>
      have hlength : ((List.range n).filter p).length = Nat.count (fun j => p j = true) n := by
        rw [Nat.count, List.countP_eq_length_filter]
        simp
      rw [List.range_succ, List.filter_append, List.take_append, List.mem_append, ih, hlength]
      by_cases hn : p n = true
      · rw [List.filter_singleton, hn, cond_true]
        by_cases hcount : Nat.count (fun j => p j = true) n < limit
        · rw [List.take_of_length_le (by simp; omega), List.mem_singleton]
          constructor
          · intro h
            cases h with
            | inl hold => exact ⟨by omega, hold.2⟩
            | inr hnew =>
                rw [hnew]
                exact ⟨by omega, hn, hcount⟩
          · intro h
            by_cases hi : i = n
            · exact .inr hi
            · exact .inl ⟨by omega, h.2⟩
        · have hzero : limit - Nat.count (fun j => p j = true) n = 0 := by omega
          rw [hzero, List.take_zero]
          constructor
          · intro h
            cases h with
            | inl hold => exact ⟨by omega, hold.2⟩
            | inr hnew => cases hnew
          · intro h
            by_cases hi : i = n
            · rw [hi] at h
              exact absurd h.2.2 hcount
            · exact .inl ⟨by omega, h.2⟩
      · have hfalse : p n = false := Bool.eq_false_iff.mpr hn
        rw [List.filter_singleton, hfalse, cond_false, List.take_nil]
        constructor
        · intro h
          cases h with
          | inl hold => exact ⟨by omega, hold.2⟩
          | inr hnew => cases hnew
        · intro h
          by_cases hi : i = n
          · rw [hi] at h
            exact absurd h.2.1 hn
          · exact .inl ⟨by omega, h.2⟩

/-!
# Rounds

Nobody is overtaken, and a ticket near the head that still waits has been tried in every round.
So after as many rounds as a ticket may be tried the first block of the queue waits no more,
the others move up, and block after block stops waiting.
-/

structure Queue where
  waiting : Nat -> Bool
  tries : Nat -> Nat

/-- How many smaller tickets wait. -/
def Queue.rank (q : Queue) (i : Nat) : Nat :=
  Nat.count (fun j => q.waiting j = true) i

/-- A round serves the first waiting tickets; of the tickets below a bound, none is new. -/
def Served (bound limit most : Nat) (q q' : Queue) : Prop :=
  forall i, i < bound -> q'.waiting i = true ->
    q.waiting i = true ∧ q'.tries i < most ∧ q.tries i ≤ q'.tries i ∧
      (q.rank i < limit -> q.tries i < q'.tries i)

inductive Rounds (bound limit most : Nat) : Nat -> Queue -> Queue -> Prop where
  | nil (q : Queue) : Rounds bound limit most 0 q q
  | round {k : Nat} {q q' q'' : Queue} : Rounds bound limit most k q q' ->
      Served bound limit most q' q'' -> Rounds bound limit most (k + 1) q q''

variable {bound limit most : Nat} {q q' : Queue}

theorem Rounds.split {a b : Nat} (h : Rounds bound limit most (a + b) q q') :
    exists mid, Rounds bound limit most a q mid ∧ Rounds bound limit most b mid q' := by
  induction b generalizing q' with
  | zero => exact ⟨q', h, .nil q'⟩
  | succ b ih =>
      cases h with
      | round hrest hserved =>
          rcases ih hrest with ⟨mid, hfirst, hlast⟩
          exact ⟨mid, hfirst, hlast.round hserved⟩

theorem Rounds.waiting {k : Nat} (h : Rounds bound limit most k q q') {i : Nat} (hi : i < bound)
    (hwaiting : q'.waiting i = true) : q.waiting i = true := by
  induction h with
  | nil => exact hwaiting
  | round _ hserved ih => exact ih (hserved i hi hwaiting).1

theorem Rounds.rank_le {k : Nat} (h : Rounds bound limit most k q q') {i : Nat}
    (hi : i < bound) : q'.rank i ≤ q.rank i := by
  apply Nat.count_mono_left
  intro j hj hwaiting
  exact h.waiting (by omega) hwaiting

/-- A ticket near the head that still waits has been tried in every round. -/
theorem Rounds.tries {k : Nat} (h : Rounds bound limit most k q q') {i : Nat} (hi : i < bound)
    (hrank : q.rank i < limit) (hwaiting : q'.waiting i = true) : k ≤ q'.tries i := by
  induction h with
  | nil => exact Nat.zero_le _
  | round hrest hserved ih =>
      rcases hserved i hi hwaiting with ⟨hbefore, -, -, htried⟩
      have hmore := htried ((hrest.rank_le hi).trans_lt hrank)
      have hall := ih hrank hbefore
      omega

theorem Rounds.head_served (hmost : 1 ≤ most) (h : Rounds bound limit most most q q') {i : Nat}
    (hi : i < bound) (hrank : q.rank i < limit) : q'.waiting i = false := by
  cases hwaiting : q'.waiting i with
  | false => rfl
  | true =>
      have htries := h.tries hi hrank hwaiting
      obtain ⟨k, rfl⟩ : exists k, most = k + 1 := ⟨most - 1, by omega⟩
      cases h with
      | round _ hserved =>
          have hbound := (hserved i hi hwaiting).2.1
          omega

theorem Rounds.rank_drop (hmost : 1 ≤ most) (h : Rounds bound limit most most q q') {i : Nat}
    (hi : i < bound) : q'.rank i ≤ q.rank i - limit := by
  have hdrop := count_filter (fun j => q.waiting j = true) limit i
  unfold Queue.rank
  rw [← hdrop]
  apply Nat.count_mono_left
  intro j hj hwaiting
  constructor
  · exact h.waiting (by omega) hwaiting
  · by_contra hrank
    have hserved := h.head_served hmost (show j < bound by omega) (by unfold Queue.rank; omega)
    rw [hwaiting] at hserved
    cases hserved

theorem Rounds.blocks_served (hmost : 1 ≤ most) {b : Nat}
    (h : Rounds bound limit most (most * b) q q') {i : Nat} (hi : i < bound)
    (hrank : q.rank i < b * limit) : q'.waiting i = false := by
  induction b generalizing q with
  | zero => omega
  | succ b ih =>
      have hsplit : Rounds bound limit most (most + most * b) q q' := by
        rw [Nat.add_comm, ← Nat.mul_succ]
        exact h
      rcases hsplit.split with ⟨mid, hfirst, hlast⟩
      have hdrop := hfirst.rank_drop hmost hi
      by_cases hhead : q.rank i < limit
      · cases hwaiting : q'.waiting i with
        | false => rfl
        | true =>
            have hserved := hfirst.head_served hmost hi hhead
            rw [hlast.waiting hi hwaiting] at hserved
            cases hserved
      · apply ih hlast
        have hsucc : (b + 1) * limit = b * limit + limit := Nat.succ_mul b limit
        omega

/-- All that wait at first are served after `most * ⌈n / limit⌉` rounds. -/
theorem Rounds.all_served (hmost : 1 ≤ most) (hlimit : 1 ≤ limit) {k n : Nat}
    (hn : q.rank bound ≤ n) (hk : most * ((n + limit - 1) / limit) ≤ k)
    (h : Rounds bound limit most k q q') {i : Nat} (hi : i < bound) :
    q'.waiting i = false := by
  cases hwaiting : q'.waiting i with
  | false => rfl
  | true =>
      rcases Nat.exists_eq_add_of_le hk with ⟨rest, rfl⟩
      rcases h.split with ⟨mid, hfirst, hlast⟩
      have hbefore := h.waiting hi hwaiting
      have hrank : q.rank i < (n + limit - 1) / limit * limit := by
        have hlt : q.rank i < q.rank bound := Nat.count_strict_mono hbefore hi
        have hceil : n + limit - 1 < ((n + limit - 1) / limit + 1) * limit :=
          Nat.lt_mul_of_div_lt (Nat.lt_succ_self _) (by omega)
        have hsucc : ((n + limit - 1) / limit + 1) * limit =
            (n + limit - 1) / limit * limit + limit := Nat.succ_mul _ limit
        omega
      have hserved := hfirst.blocks_served hmost hi hrank
      rw [hlast.waiting hi hwaiting] at hserved
      cases hserved

end Batches
end RagService
