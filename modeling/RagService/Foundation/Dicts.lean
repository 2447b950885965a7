import Mathlib.Data.List.Nodup

/-!
# Dictionaries

Dictionaries that keep the order in which their keys came.  Assigning to a key that is there
leaves it in its place, and of pairs with one key the last one counts.
-/

namespace RagService

/-- Keys with their values, in the order of insertion. -/
abbrev Dict (Key Value : Type) := List (Key × Value)

namespace Dict

variable {Key Value : Type} [DecidableEq Key]

def get : Dict Key Value -> Key -> Option Value
  | [], _ => none
  | (k, v) :: rest, key => if k = key then some v else get rest key

def set : Dict Key Value -> Key -> Value -> Dict Key Value
  | [], key, value => [(key, value)]
  | (k, v) :: rest, key, value =>
      if k = key then (k, value) :: rest else (k, v) :: set rest key value

def setDefault (d : Dict Key Value) (key : Key) (value : Value) : Dict Key Value :=
  match d.get key with
  | some _ => d
  | none => d.set key value

def ofPairs (pairs : List (Key × Value)) : Dict Key Value :=
  pairs.foldl (fun d (key, value) => d.set key value) []

def values (d : Dict Key Value) : List Value :=
  d.map Prod.snd

variable {d : Dict Key Value} {key k : Key} {value v : Value}

theorem get_set (d : Dict Key Value) (k key : Key) (v : Value) :
    (d.set k v).get key = if k = key then some v else d.get key := by
  induction d with
  | nil => rfl
  | cons p rest ih =>
      rcases p with ⟨k₀, v₀⟩
      unfold set
      by_cases hk₀ : k₀ = k
      · subst hk₀
        rw [if_pos rfl]
        unfold get
        split
        · rfl
        · rfl
      · rw [if_neg hk₀]
        unfold get
        rw [ih]
        by_cases hkey : k₀ = key
        · subst hkey
          rw [if_pos rfl, if_neg (Ne.symm hk₀), if_pos rfl]
        · rw [if_neg hkey, if_neg hkey]

theorem mem_of_get (h : d.get key = some value) : (key, value) ∈ d := by
  induction d with
  | nil => cases h
  | cons p rest ih =>
      rcases p with ⟨k₀, v₀⟩
      unfold get at h
      split at h
      · rename_i hk
        cases h
        rw [hk]
        exact List.mem_cons_self
      · exact List.mem_cons_of_mem _ (ih h)

theorem mem_set {p : Key × Value} (h : p ∈ d.set k v) : p = (k, v) ∨ p ∈ d := by
  induction d with
  | nil => exact .inl (List.mem_singleton.mp h)
  | cons q rest ih =>
      rcases q with ⟨k₀, v₀⟩
      unfold set at h
      split at h
      · rename_i hk
        rw [hk] at h
        cases List.mem_cons.mp h with
        | inl hnew => exact .inl hnew
        | inr hrest => exact .inr (List.mem_cons_of_mem _ hrest)
      · cases List.mem_cons.mp h with
        | inl hfirst => exact .inr (List.mem_cons.mpr (.inl hfirst))
        | inr hrest =>
            cases ih hrest with
            | inl hnew => exact .inl hnew
            | inr hold => exact .inr (List.mem_cons_of_mem _ hold)

theorem mem_values_of_get (h : d.get key = some value) : value ∈ d.values :=
  List.mem_map_of_mem (f := Prod.snd) (mem_of_get h)

theorem mem_values_set (h : value ∈ (d.set k v).values) : value = v ∨ value ∈ d.values := by
  rcases List.mem_map.mp h with ⟨p, hp, hvalue⟩
  cases mem_set hp with
  | inl hnew =>
      rw [hnew] at hvalue
      exact .inl hvalue.symm
  | inr hold => exact .inr (List.mem_map.mpr ⟨p, hold, hvalue⟩)

theorem mem_values_setDefault (h : value ∈ (d.setDefault k v).values) :
    value = v ∨ value ∈ d.values := by
  unfold setDefault at h
  split at h
  · exact .inr h
  · exact mem_values_set h

theorem get_ofPairs (pairs : List (Key × Value)) (key : Key) :
    (ofPairs pairs).get key =
      ((pairs.filter fun p => p.1 = key).getLast?).map Prod.snd := by
  have hfold : forall d : Dict Key Value,
      (pairs.foldl (fun d (key, value) => d.set key value) d).get key =
        (((pairs.filter fun p => p.1 = key).getLast?).map Prod.snd).or (d.get key) := by
    induction pairs with
    | nil =>
        intro d
        rfl
    | cons p rest ih =>
        intro d
        rcases p with ⟨k₀, v₀⟩
        rw [List.foldl_cons, ih, get_set, List.filter_cons]
        by_cases hk₀ : k₀ = key
        · simp only [hk₀, decide_true, if_true]
          cases hlast : (rest.filter fun p => p.1 = key).getLast? with
          | none =>
              rw [List.getLast?_eq_none_iff.mp hlast]
              rfl
          | some q =>
              rw [List.getLast?_cons, hlast]
              rfl
        · simp only [hk₀, decide_false, if_false]
          rfl
  rw [ofPairs, hfold []]
  exact Option.or_none

theorem get_ofPairs_eq_some_of_unique {pairs : List (Key × Value)}
    (hunique : forall v w, (key, v) ∈ pairs -> (key, w) ∈ pairs -> v = w) :
    (ofPairs pairs).get key = some value ↔ (key, value) ∈ pairs := by
  have hone : forall p, p ∈ pairs.filter (fun p => p.1 = key) -> (key, p.2) ∈ pairs := by
    intro p hp
    rcases List.mem_filter.mp hp with ⟨hmem, hkey⟩
    rw [← of_decide_eq_true hkey]
    exact hmem
  rw [get_ofPairs, Option.map_eq_some_iff]
  constructor
  · intro h
    rcases h with ⟨p, hlast, hvalue⟩
    rw [← hvalue]
    exact hone p (List.mem_of_getLast? hlast)
  · intro hmem
    have hfilter : (key, value) ∈ pairs.filter fun p => p.1 = key :=
      List.mem_filter.mpr ⟨hmem, decide_eq_true rfl⟩
    cases hlast : (pairs.filter fun p => p.1 = key).getLast? with
    | none =>
        rw [List.getLast?_eq_none_iff.mp hlast] at hfilter
        cases hfilter
    | some p => exact ⟨p, rfl, hunique _ _ (hone p (List.mem_of_getLast? hlast)) hmem⟩

theorem get_ofPairs_eq_some {pairs : List (Key × Value)} (hkeys : (pairs.map Prod.fst).Nodup) :
    (ofPairs pairs).get key = some value ↔ (key, value) ∈ pairs := by
  apply get_ofPairs_eq_some_of_unique
  intro v w hv hw
  exact congrArg Prod.snd (List.inj_on_of_nodup_map hkeys hv hw rfl)

/-!
# Keys

A new key goes to the end; a key that is there keeps its place.
-/

theorem get_isSome_iff : (d.get key).isSome ↔ key ∈ d.map Prod.fst := by
  induction d with
  | nil => simp [get]
  | cons p rest ih =>
      rcases p with ⟨k₀, v₀⟩
      unfold get
      rw [List.map_cons, List.mem_cons]
      split
      · rename_i hkey
        exact ⟨fun _ => .inl hkey.symm, fun _ => rfl⟩
      · rename_i hkey
        rw [ih]
        constructor
        · exact .inr
        · intro h
          exact h.resolve_left fun heq => hkey heq.symm

theorem get_eq_none_iff : d.get key = none ↔ key ∉ d.map Prod.fst := by
  rw [← get_isSome_iff]
  cases d.get key <;> simp

theorem get_eq_some_of_mem (hkeys : (d.map Prod.fst).Nodup) (h : (key, value) ∈ d) :
    d.get key = some value := by
  cases hget : d.get key with
  | none =>
      have hmem := List.mem_map_of_mem (f := Prod.fst) h
      exact absurd hmem (get_eq_none_iff.mp hget)
  | some found =>
      have hsame := List.inj_on_of_nodup_map hkeys (mem_of_get hget) h rfl
      rw [Prod.mk.injEq] at hsame
      rw [hsame.2]

theorem set_of_not_mem (h : key ∉ d.map Prod.fst) : d.set key value = d ++ [(key, value)] := by
  induction d with
  | nil => rfl
  | cons p rest ih =>
      rcases p with ⟨k₀, v₀⟩
      rw [List.map_cons, List.mem_cons, not_or] at h
      unfold set
      rw [if_neg fun heq => h.1 heq.symm, ih h.2]
      rfl

theorem set_of_mem (hkeys : (d.map Prod.fst).Nodup) (h : key ∈ d.map Prod.fst) :
    d.set key value = d.map fun p => if p.1 = key then (key, value) else p := by
  induction d with
  | nil => cases h
  | cons p rest ih =>
      rcases p with ⟨k₀, v₀⟩
      rw [List.map_cons, List.nodup_cons] at hkeys
      unfold set
      rw [List.map_cons]
      split
      · rename_i heq
        have hrest : (rest.map fun p => if p.1 = key then (key, value) else p) = rest.map id := by
          apply List.map_congr_left
          intro p hp
          rw [if_neg]
          · rfl
          · intro hpkey
            apply hkeys.1
            show k₀ ∈ rest.map Prod.fst
            rw [heq, ← hpkey]
            exact List.mem_map_of_mem hp
        rw [hrest, List.map_id, heq]
      · rename_i hne
        rw [List.map_cons, List.mem_cons] at h
        rw [ih hkeys.2 (h.resolve_left fun heq => hne heq.symm)]

theorem keys_set_of_mem (hkeys : (d.map Prod.fst).Nodup) (h : key ∈ d.map Prod.fst) :
    (d.set key value).map Prod.fst = d.map Prod.fst := by
  rw [set_of_mem hkeys h, List.map_map]
  apply List.map_congr_left
  intro p _
  show (if p.1 = key then (key, value) else p).1 = p.1
  split
  · rename_i heq
    exact heq.symm
  · rfl

theorem mem_keys_set : k ∈ (d.set key value).map Prod.fst ↔ k = key ∨ k ∈ d.map Prod.fst := by
  rw [← get_isSome_iff, ← get_isSome_iff, get_set]
  split
  · rename_i heq
    exact ⟨fun _ => .inl heq.symm, fun _ => rfl⟩
  · rename_i hne
    constructor
    · exact .inr
    · intro h
      exact h.resolve_left fun heq => hne heq.symm

theorem nodup_keys_set (hkeys : (d.map Prod.fst).Nodup) :
    ((d.set key value).map Prod.fst).Nodup := by
  by_cases h : key ∈ d.map Prod.fst
  · rw [keys_set_of_mem hkeys h]
    exact hkeys
  · rw [set_of_not_mem h, List.map_append, List.map_singleton, ← List.concat_eq_append]
    exact hkeys.concat h

theorem nodup_keys_ofPairs (pairs : List (Key × Value)) : ((ofPairs pairs).map Prod.fst).Nodup := by
  have hfold : forall d : Dict Key Value, (d.map Prod.fst).Nodup ->
      ((pairs.foldl (fun d (key, value) => d.set key value) d).map Prod.fst).Nodup := by
    induction pairs with
    | nil => exact fun d hd => hd
    | cons p rest ih => exact fun d hd => ih _ (nodup_keys_set hd)
  exact hfold [] List.nodup_nil

end Dict
end RagService
