import Mathlib.Data.List.Perm.Subperm

/-!
# Sliding windows

Times are admitted against a log of the times admitted before.  What leaves the log must be too
old for every time that is still to be admitted; then no window gets too full.  Time goes by,
times from the clock become pending, old times leave the store, and a pending time is put where
there is room.
-/

namespace RagService
namespace Windows

def inWindow (interval a : Nat) (t : Nat) : Bool :=
  a ≤ t && t < a + interval

/-- No window has more times than the limit. -/
def Within (limit interval : Nat) (admitted : List Nat) : Prop :=
  forall a, admitted.countP (inWindow interval a) ≤ limit

/--
What has been admitted is stored, or is older than the longest interval, now and as seen
from each time that is pending.
-/
def Logged (longest clock : Nat) (pending stored admitted : List Nat) : Prop :=
  exists removed, admitted.Subperm (stored ++ removed) ∧
    forall r, r ∈ removed -> r + longest ≤ clock ∧ forall t, t ∈ pending -> r + longest ≤ t

variable {longest clock clock' limit interval t : Nat} {pending pending' stored admitted : List Nat}

theorem Within.nil (limit interval : Nat) : Within limit interval [] :=
  fun _ => Nat.zero_le _

theorem Logged.nil (longest clock : Nat) (pending stored : List Nat) :
    Logged longest clock pending stored [] :=
  ⟨[], List.nil_subperm, nofun⟩

theorem Within.perm {admitted' : List Nat} (h : Within limit interval admitted)
    (hperm : admitted'.Perm admitted) : Within limit interval admitted' := by
  intro a
  rw [hperm.countP_eq]
  exact h a

theorem Logged.perm {admitted' : List Nat} (h : Logged longest clock pending stored admitted)
    (hperm : admitted'.Perm admitted) : Logged longest clock pending stored admitted' := by
  rcases h with ⟨removed, hsub, hold⟩
  exact ⟨removed, hperm.subperm.trans hsub, hold⟩

theorem Logged.mono (h : Logged longest clock pending stored admitted) (hclock : clock ≤ clock')
    (hpending : forall t, t ∈ pending' -> t ∈ pending ∨ clock ≤ t) :
    Logged longest clock' pending' stored admitted := by
  rcases h with ⟨removed, hsub, hold⟩
  refine ⟨removed, hsub, ?_⟩
  intro r hr
  rcases hold r hr with ⟨hnow, hstill⟩
  constructor
  · omega
  · intro t ht
    cases hpending t ht with
    | inl hbefore => exact hstill t hbefore
    | inr hlater => omega

theorem Logged.put (h : Logged longest clock pending stored admitted) (t : Nat) :
    Logged longest clock pending (t :: stored) (t :: admitted) := by
  rcases h with ⟨removed, hsub, hold⟩
  exact ⟨removed, (List.subperm_cons t).mpr hsub, hold⟩

theorem Logged.remove {kept old : List Nat} (h : Logged longest clock pending stored admitted)
    (hperm : stored.Perm (kept ++ old))
    (hsafe : forall r, r ∈ old -> r + longest ≤ clock ∧ forall t, t ∈ pending -> r + longest ≤ t) :
    Logged longest clock pending kept admitted := by
  rcases h with ⟨removed, hsub, hold⟩
  refine ⟨old ++ removed, ?_, ?_⟩
  · rw [← List.append_assoc]
    exact hsub.trans (hperm.append_right removed).subperm
  · intro r hr
    cases List.mem_append.mp hr with
    | inl hnew => exact hsafe r hnew
    | inr hbefore => exact hold r hbefore

/-- A pending time for which there is room keeps every window within the limit. -/
theorem Logged.within_put (h : Logged longest clock pending stored admitted)
    (hwithin : Within limit interval admitted) (ht : t ∈ pending) (hle : interval ≤ longest)
    (hroom : stored.countP (fun s => t < s + interval) + 1 ≤ limit) :
    Within limit interval (t :: admitted) := by
  intro a
  rw [List.countP_cons]
  cases hin : inWindow interval a t with
  | false => exact hwithin a
  | true =>
      rcases h with ⟨removed, hsub, hold⟩
      have hwindow : a ≤ t ∧ t < a + interval := by simpa [inWindow] using hin
      -- what has been removed lies before the window
      have hremoved : removed.countP (inWindow interval a) = 0 := by
        apply List.countP_eq_zero.mpr
        intro r hr hrin
        have hbefore := (hold r hr).2 t ht
        have hr : a ≤ r ∧ r < a + interval := by simpa [inWindow] using hrin
        omega
      have hstored : stored.countP (inWindow interval a) ≤
          stored.countP fun s => t < s + interval := by
        apply List.countP_mono_left
        intro s _ hs
        have hs : a ≤ s ∧ s < a + interval := by simpa [inWindow] using hs
        apply decide_eq_true
        omega
      have hcount := hsub.countP_le (inWindow interval a)
      rw [List.countP_append] at hcount
      rw [if_pos rfl]
      omega

end Windows
end RagService
