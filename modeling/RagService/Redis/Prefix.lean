import RagService.Foundation.Calls

/-!
# Deletion by prefix

`RedisCli.delete_by_prefix`, over any commands that find and delete keys: the keys of a scan
that go on after the prefix are deleted in batches.
-/

namespace RagService
namespace RedisCli

open Interleaving

variable {I : Interface} {Key S : Type} [DecidableEq Key]

def deleteScanned (delete : List Key -> Program I Unit) (excludeKeys : List Key)
    (batchSize : Nat) : List Key -> List Key -> Program I Unit
  | batch, [] => if batch.isEmpty then return () else delete batch
  | batch, key :: rest =>
      if key ∈ excludeKeys then deleteScanned delete excludeKeys batchSize batch rest
      else if batchSize ≤ batch.length + 1 then do
        delete (batch ++ [key])
        deleteScanned delete excludeKeys batchSize [] rest
      else deleteScanned delete excludeKeys batchSize (batch ++ [key]) rest

def deleteByPrefix (hasKey : Key -> Program I Bool) (scan : Program I (List Key))
    (delete : List Key -> Program I Unit) (keyPrefix : Key) (excludeKeys : List Key)
    (batchSize : Nat) : Program I Unit := do
  let found ← if keyPrefix ∈ excludeKeys then pure false else hasKey keyPrefix
  let keys ← scan
  deleteScanned delete excludeKeys batchSize (if found then [keyPrefix] else []) keys

variable {hasKey : Key -> Program I Bool} {scan : Program I (List Key)}
variable {delete : List Key -> Program I Unit}

/-!
# Which commands it issues
-/

theorem deleteScanned_issues {P : I.Command -> Prop}
    (hdelete : forall keys, (delete keys).Issues P fun _ => True) (excludeKeys : List Key)
    (batchSize : Nat) (batch keys : List Key) :
    (deleteScanned delete excludeKeys batchSize batch keys).Issues P fun _ => True := by
  induction keys generalizing batch with
  | nil =>
      unfold deleteScanned
      split
      · trivial
      · exact hdelete batch
  | cons key rest ih =>
      unfold deleteScanned
      split
      · exact ih batch
      · split
        · exact Program.issues_bind (hdelete _) fun _ _ => ih []
        · exact ih _

theorem deleteByPrefix_issues {P : I.Command -> Prop}
    (hhas : forall key, (hasKey key).Issues P fun _ => True)
    (hscan : scan.Issues P fun _ => True)
    (hdelete : forall keys, (delete keys).Issues P fun _ => True) (keyPrefix : Key)
    (excludeKeys : List Key) (batchSize : Nat) :
    (deleteByPrefix hasKey scan delete keyPrefix excludeKeys batchSize).Issues P
      fun _ => True := by
  have hrest : forall found : Bool, (scan.bind fun keys => deleteScanned delete excludeKeys
      batchSize (if found then [keyPrefix] else []) keys).Issues P fun _ => True := by
    intro found
    apply Program.issues_bind hscan
    intro keys _
    exact deleteScanned_issues hdelete _ _ _ _
  unfold deleteByPrefix
  split
  · exact hrest false
  · exact Program.issues_bind (hhas keyPrefix) fun found _ => hrest found

/-!
# What it leaves

The loop ends, and what it has met is gone and stays gone.
-/

variable {exec : (c : I.Command) -> S -> S × Except I.Error (I.Result c)}
variable {gone : S -> Key -> Prop}

def Deletes (exec : (c : I.Command) -> S -> S × Except I.Error (I.Result c))
    (delete : List Key -> Program I Unit) (gone : S -> Key -> Prop) : Prop :=
  forall keys s, exists s', (delete keys).run exec s = (s', .ok ()) ∧
    forall key, key ∈ keys ∨ gone s key -> gone s' key

theorem deleteScanned_run (hdelete : Deletes exec delete gone) (batchSize : Nat)
    (batch keys : List Key) (s : S) :
    exists s', (deleteScanned delete [] batchSize batch keys).run exec s = (s', .ok ()) ∧
      forall key, key ∈ batch ∨ key ∈ keys ∨ gone s key -> gone s' key := by
  induction keys generalizing batch s with
  | nil =>
      unfold deleteScanned
      split
      · rename_i hempty
        refine ⟨s, rfl, fun key hkey => ?_⟩
        rw [List.isEmpty_iff.mp hempty] at hkey
        simpa using hkey
      · rcases hdelete batch s with ⟨s', hrun, hgone⟩
        refine ⟨s', hrun, fun key hkey => hgone key ?_⟩
        simpa using hkey
  | cons k rest ih =>
      unfold deleteScanned
      split
      · rename_i hexcluded
        cases hexcluded
      · split
        · rcases hdelete (batch ++ [k]) s with ⟨s₁, hrun₁, hgone₁⟩
          rcases ih [] s₁ with ⟨s₂, hrun₂, hgone₂⟩
          refine ⟨s₂, (Program.run_bind_ok hrun₁ _).trans hrun₂, fun key hkey => ?_⟩
          by_cases hrest : key ∈ rest
          · exact hgone₂ key (.inr (.inl hrest))
          · apply hgone₂ key
            refine .inr (.inr (hgone₁ key ?_))
            simpa [hrest, or_assoc] using hkey
        · rcases ih (batch ++ [k]) s with ⟨s', hrun, hgone⟩
          refine ⟨s', hrun, fun key hkey => hgone key ?_⟩
          simpa [or_assoc] using hkey

end RedisCli
end RagService
