import Mathlib.Data.List.AList

/-!
# Association lists

Erasing several keys at once.
-/

namespace RagService

variable {Key Value : Type} [DecidableEq Key]

/-- Erase some keys. -/
def eraseAll (m : AList fun _ : Key => Value) (keys : List Key) : AList fun _ : Key => Value :=
  keys.foldl (fun m key => m.erase key) m

theorem lookup_eraseAll (m : AList fun _ : Key => Value) (keys : List Key) (key : Key) :
    (eraseAll m keys).lookup key = if key ∈ keys then none else m.lookup key := by
  induction keys generalizing m with
  | nil => rfl
  | cons k rest ih =>
      have hstep : (eraseAll m (k :: rest)).lookup key =
          if key ∈ rest then none else (m.erase k).lookup key := ih (m.erase k)
      rw [hstep]
      by_cases hk : key = k
      · subst hk
        simp
      · simp [hk, AList.lookup_erase_ne hk]

theorem lookup_of_eraseAll {m : AList fun _ : Key => Value} {keys : List Key} {key : Key}
    {value : Value} (h : (eraseAll m keys).lookup key = some value) :
    key ∉ keys ∧ m.lookup key = some value := by
  rw [lookup_eraseAll] at h
  split at h
  · cases h
  · rename_i hkey
    exact ⟨hkey, h⟩

theorem lookup_of_erase {m : AList fun _ : Key => Value} {k key : Key} {value : Value}
    (h : (m.erase k).lookup key = some value) : key ≠ k ∧ m.lookup key = some value := by
  by_cases hk : key = k
  · subst hk
    rw [AList.lookup_erase] at h
    cases h
  · rw [AList.lookup_erase_ne hk] at h
    exact ⟨hk, h⟩

theorem lookup_of_insert {m : AList fun _ : Key => Value} {k key : Key} {v value : Value}
    (h : (m.insert k v).lookup key = some value) :
    key = k ∧ value = v ∨ m.lookup key = some value := by
  by_cases hk : key = k
  · subst hk
    rw [AList.lookup_insert] at h
    exact .inl ⟨rfl, (Option.some.inj h).symm⟩
  · rw [AList.lookup_insert_ne hk] at h
    exact .inr h

end RagService
