import Mathlib.Data.List.Nodup
import Mathlib.Data.List.Perm.Basic
import Mathlib.Logic.Relation

/-!
# Forests

Elements with a key each refer to their parent by its key.  The listing from the roots down
shows every element exactly once whose way up meets no cycle.
-/

namespace RagService
namespace Forest

/-!
# Acyclic relations

Ranks that fall along every edge keep a relation acyclic.  So does a new parent that is not
below the key which gets it, since a path over the new edge avoids it or goes to it and on from
it.
-/

section

variable {Key : Type} {above above' : Key -> Key -> Prop} {a p x y : Key}

def Acyclic (above : Key -> Key -> Prop) : Prop :=
  forall a, ¬ Relation.TransGen above a a

theorem Acyclic.mono (h : Acyclic above) (hle : forall x y, above' x y -> above x y) :
    Acyclic above' :=
  fun a ha => h a (Relation.TransGen.mono hle _ _ ha)

/-- No key on the way up from this one is above itself. -/
def Founded (above : Key -> Key -> Prop) (x : Key) : Prop :=
  forall y, Relation.ReflTransGen above x y -> ¬ Relation.TransGen above y y

theorem Acyclic.founded (h : Acyclic above) (x : Key) : Founded above x :=
  fun y _ => h y

theorem Founded.mono (h : Founded above x) (hle : forall x y, above' x y -> above x y) :
    Founded above' x :=
  fun y hy hcycle => h y (Relation.ReflTransGen.mono hle _ _ hy)
    (Relation.TransGen.mono hle _ _ hcycle)

theorem Founded.self (h : Founded above x) : ¬ Relation.TransGen above x x :=
  h x .refl

theorem Founded.parent (h : Founded above x) (hparent : above x p) : Founded above p :=
  fun y hy => h y (.head hparent hy)

theorem acyclic_of_rank (rank : Key -> Nat) (h : forall x y, above x y -> rank y < rank x) :
    Acyclic above := by
  have hpath : forall x y, Relation.TransGen above x y -> rank y < rank x := by
    intro x y hxy
    induction hxy with
    | single hedge => exact h _ _ hedge
    | tail _ hedge ih => exact Nat.lt_trans (h _ _ hedge) ih
  intro a ha
  exact Nat.lt_irrefl _ (hpath a a ha)

theorem path_relink (hpath : Relation.TransGen above' x y)
    (hle : forall x y, above' x y -> above x y ∨ x = a ∧ y = p)
    (hp : ¬ Relation.ReflTransGen above p a) :
    Relation.TransGen above x y ∨
      Relation.ReflTransGen above x a ∧ Relation.ReflTransGen above p y := by
  induction hpath with
  | single hedge =>
      cases hle _ _ hedge with
      | inl hold => exact .inl (.single hold)
      | inr hnew =>
          rw [hnew.1, hnew.2]
          exact .inr ⟨.refl, .refl⟩
  | tail _ hedge ih =>
      cases hle _ _ hedge with
      | inl hold =>
          cases ih with
          | inl h => exact .inl (h.tail hold)
          | inr h => exact .inr ⟨h.1, h.2.tail hold⟩
      | inr hnew =>
          rw [hnew.1] at ih
          rw [hnew.2]
          cases ih with
          | inl h => exact .inr ⟨h.to_reflTransGen, .refl⟩
          | inr h => exact absurd h.2 hp

/-- A key gets a new parent that is not below it. -/
theorem Acyclic.relink (h : Acyclic above)
    (hle : forall x y, above' x y -> above x y ∨ x = a ∧ y = p)
    (hp : ¬ Relation.ReflTransGen above p a) : Acyclic above' := by
  intro c hc
  cases path_relink hc hle hp with
  | inl hold => exact h c hold
  | inr hnew => exact hp (hnew.2.trans hnew.1)

end

/-!
# Listings

The listing goes from the elements without a parent among the others down, to a depth.
-/

section

variable {α Key : Type} (key : α -> Key) (parent : α -> Option Key)

def Above (nodes : List α) (x p : Key) : Prop :=
  exists n, n ∈ nodes ∧ key n = x ∧ parent n = some p

def childrenOf [DecidableEq Key] (nodes : List α) (k : Key) : List α :=
  nodes.filter fun n => parent n = some k

def rootsOf [DecidableEq Key] (nodes : List α) : List α :=
  nodes.filter fun n => (parent n).all fun p => p ∉ nodes.map key

/-- The elements and all that is below them, as deep as this. -/
def listing (children : Key -> List α) : Nat -> List α -> List α
  | 0, _ => []
  | depth + 1, ns => ns.flatMap fun n => n :: listing children depth (children (key n))

variable {key parent} {nodes : List α}

theorem listing_nil (children : Key -> List α) (depth : Nat) : listing key children depth [] = [] := by
  cases depth with
  | zero => rfl
  | succ depth => rfl

theorem listing_succ (children : Key -> List α) (depth : Nat) (ns : List α) :
    (listing key children (depth + 1) ns).Perm
      (ns ++ (listing key children depth ns).flatMap fun n => children (key n)) := by
  induction depth generalizing ns with
  | zero => simp [listing]
  | succ depth ih =>
      have hfirst : (listing key children (depth + 2) ns).Perm
          (ns ++ ns.flatMap fun n => listing key children (depth + 1) (children (key n))) := by
        have h := List.map_append_flatMap_perm ns (fun n => n)
          fun n => listing key children (depth + 1) (children (key n))
        rw [List.map_id'] at h
        exact h.symm
      have hnext : (ns.flatMap fun n => listing key children (depth + 1) (children (key n))).Perm
          ((listing key children (depth + 1) ns).flatMap fun n => children (key n)) := by
        have h := List.Perm.flatMap_left ns fun n _ => ih (children (key n))
        rw [show listing key children (depth + 1) ns =
          ns.flatMap fun n => n :: listing key children depth (children (key n)) from rfl,
          List.flatMap_assoc]
        exact h
      exact hfirst.trans (hnext.append_left ns)

/-!
# Heights

The height of a key, which bounds the depth of the listing that shows it.
-/

open Classical in
noncomputable def height (key : α -> Key) (parent : α -> Option Key) (nodes : List α) (x : Key) :
    Nat :=
  (nodes.filter fun m => Relation.TransGen (Above key parent nodes) x (key m)).length

theorem height_lt_length {n : α} (hn : n ∈ nodes)
    (hself : ¬ Relation.TransGen (Above key parent nodes) (key n) (key n)) :
    height key parent nodes (key n) < nodes.length := by
  apply List.length_filter_lt_length_iff_exists.mpr
  exists n
  constructor
  · exact hn
  · simpa using hself

theorem height_lt_height {n m : α} (hn : n ∈ nodes) (hm : m ∈ nodes)
    (hself : ¬ Relation.TransGen (Above key parent nodes) (key m) (key m))
    (hparent : parent n = some (key m)) :
    height key parent nodes (key m) < height key parent nodes (key n) := by
  have habove : Above key parent nodes (key n) (key m) := ⟨n, hn, rfl, hparent⟩
  classical
  have hsub : (nodes.filter fun x => Relation.TransGen (Above key parent nodes) (key m) (key x)) =
      (nodes.filter fun x => Relation.TransGen (Above key parent nodes) (key n) (key x)).filter
        fun x => Relation.TransGen (Above key parent nodes) (key m) (key x) := by
    rw [List.filter_filter]
    apply List.filter_congr
    intro x _
    by_cases hx : Relation.TransGen (Above key parent nodes) (key m) (key x)
    · simp [hx, Relation.TransGen.head habove hx]
    · simp [hx]
  unfold height
  rw [hsub]
  apply List.length_filter_lt_length_iff_exists.mpr
  exists m
  constructor
  · exact List.mem_filter.mpr ⟨hm, decide_eq_true (.single habove)⟩
  · simpa using hself

/-!
# Every element once

An element is a child of its parent alone, and the way up from a root leaves the elements at
once; so an element is shown once when its way up comes to an end.
-/

variable [DecidableEq Key]

theorem mem_of_mem_childrenOf {k : Key} {n : α} (h : n ∈ childrenOf parent nodes k) : n ∈ nodes :=
  (List.mem_filter.mp h).1

theorem mem_of_mem_rootsOf {n : α} (h : n ∈ rootsOf key parent nodes) : n ∈ nodes :=
  (List.mem_filter.mp h).1

theorem founded_of_mem_rootsOf (hkeys : (nodes.map key).Nodup) {n : α}
    (hn : n ∈ rootsOf key parent nodes) : Founded (Above key parent nodes) (key n) := by
  rcases List.mem_filter.mp hn with ⟨hmem, hroot⟩
  have hout : forall p, Above key parent nodes (key n) p -> p ∉ nodes.map key := by
    intro p h
    rcases h with ⟨m, hm, hkey, hparent⟩
    rw [List.inj_on_of_nodup_map hkeys hm hmem hkey] at hparent
    rw [hparent] at hroot
    exact of_decide_eq_true hroot
  have hin : forall x p, Above key parent nodes x p -> x ∈ nodes.map key := by
    intro x p h
    rcases h with ⟨m, hm, rfl, -⟩
    exact List.mem_map_of_mem hm
  -- a key outside of the elements is all of the way up from it
  have hend : forall p y, p ∉ nodes.map key -> Relation.ReflTransGen (Above key parent nodes) p y ->
      y = p := by
    intro p y hp hpath
    rcases hpath.cases_head with heq | ⟨z, hstep, -⟩
    · exact heq.symm
    · exact absurd (hin p z hstep) hp
  intro y hpath hcycle
  rcases Relation.TransGen.head'_iff.mp hcycle with ⟨z, hstep, hback⟩
  have hy : y ∈ nodes.map key := hin y z hstep
  rcases hpath.cases_head with rfl | ⟨p, hfirst, hrest⟩
  · have hz := hout z hstep
    exact hz (hend z _ hz hback ▸ hy)
  · have hp := hout p hfirst
    exact hp (hend p y hp hrest ▸ hy)

theorem mem_of_mem_listing {depth : Nat} {ns : List α} {n : α} (hns : forall m, m ∈ ns -> m ∈ nodes)
    (h : n ∈ listing key (childrenOf parent nodes) depth ns) : n ∈ nodes := by
  induction depth generalizing ns with
  | zero => cases h
  | succ depth ih =>
      rcases List.mem_flatMap.mp h with ⟨m, hm, h⟩
      cases List.mem_cons.mp h with
      | inl hfirst =>
          rw [hfirst]
          exact hns m hm
      | inr hrest => exact ih (fun c hc => mem_of_mem_childrenOf hc) hrest

theorem listing_congr {children : Key -> List α} {depth : Nat} {ns : List α}
    (h : forall n, n ∈ nodes -> children (key n) = childrenOf parent nodes (key n))
    (hns : forall m, m ∈ ns -> m ∈ nodes) :
    listing key children depth ns = listing key (childrenOf parent nodes) depth ns := by
  induction depth generalizing ns with
  | zero => rfl
  | succ depth ih =>
      unfold listing
      apply List.flatMap_congr
      intro n hn
      rw [h n (hns n hn), ih fun m hm => mem_of_mem_childrenOf hm]

theorem count_children [DecidableEq α] (hkeys : (nodes.map key).Nodup) {n m : α} {ns : List α}
    (hn : n ∈ nodes) (hm : m ∈ nodes) (hparent : parent n = some (key m))
    (hns : forall x, x ∈ ns -> x ∈ nodes) :
    (ns.flatMap fun x => childrenOf parent nodes (key x)).count n = ns.count m := by
  induction ns with
  | nil => rfl
  | cons x rest ih =>
      have hrest := ih fun y hy => hns y (.tail _ hy)
      rw [List.flatMap_cons, List.count_append, hrest, List.count_cons, Nat.add_comm]
      congr 1
      by_cases hx : x = m
      · subst hx
        have hchild : n ∈ childrenOf parent nodes (key x) :=
          List.mem_filter.mpr ⟨hn, decide_eq_true hparent⟩
        have honce := List.count_eq_one_of_mem ((List.Nodup.of_map key hkeys).filter _) hchild
        simpa [childrenOf] using honce
      · have hnot : n ∉ childrenOf parent nodes (key x) := by
          intro hchild
          have heq := of_decide_eq_true (List.mem_filter.mp hchild).2
          rw [hparent] at heq
          exact hx (List.inj_on_of_nodup_map hkeys (hns x (.head _)) hm (Option.some.inj heq).symm)
        rw [List.count_eq_zero_of_not_mem hnot]
        simp [hx]

theorem not_mem_children {n : α} {ns : List α} (hns : forall x, x ∈ ns -> x ∈ nodes)
    (hn : n ∈ rootsOf key parent nodes) :
    n ∉ ns.flatMap fun x => childrenOf parent nodes (key x) := by
  intro h
  rcases List.mem_flatMap.mp h with ⟨x, hx, hchild⟩
  have hparent := of_decide_eq_true (List.mem_filter.mp hchild).2
  have hroot := (List.mem_filter.mp hn).2
  rw [hparent] at hroot
  exact of_decide_eq_true hroot (List.mem_map_of_mem (hns x hx))

theorem count_listing [DecidableEq α] (hkeys : (nodes.map key).Nodup) {n : α} (hn : n ∈ nodes)
    (hfounded : Founded (Above key parent nodes) (key n)) {depth : Nat}
    (hdepth : height key parent nodes (key n) < depth) :
    (listing key (childrenOf parent nodes) depth (rootsOf key parent nodes)).count n = 1 := by
  have hnodes := List.Nodup.of_map key hkeys
  induction depth generalizing n with
  | zero => cases hdepth
  | succ depth ih =>
      have hbelow : forall m,
          m ∈ listing key (childrenOf parent nodes) depth (rootsOf key parent nodes) -> m ∈ nodes :=
        fun m hm => mem_of_mem_listing (fun x hx => mem_of_mem_rootsOf hx) hm
      rw [(listing_succ _ depth _).count_eq, List.count_append]
      by_cases hroot : n ∈ rootsOf key parent nodes
      · have honce := List.count_eq_one_of_mem (hnodes.filter _) hroot
        rw [← rootsOf] at honce
        rw [honce, List.count_eq_zero_of_not_mem (not_mem_children hbelow hroot)]
      · -- the element counts once for its parent
        have hparent : exists p, parent n = some p ∧ p ∈ nodes.map key := by
          cases hp : parent n with
          | none => exact absurd (List.mem_filter.mpr ⟨hn, by rw [hp]; rfl⟩) hroot
          | some p =>
              refine ⟨p, rfl, ?_⟩
              apply Classical.byContradiction
              intro hnot
              exact hroot (List.mem_filter.mpr ⟨hn, by rw [hp]; simpa using hnot⟩)
        rcases hparent with ⟨p, hp, hmem⟩
        rcases List.mem_map.mp hmem with ⟨m, hm, rfl⟩
        have hparent : Founded (Above key parent nodes) (key m) :=
          hfounded.parent ⟨n, hn, rfl, hp⟩
        have hheight := height_lt_height hn hm hparent.self hp
        rw [List.count_eq_zero_of_not_mem hroot, count_children hkeys hn hm hp hbelow,
          ih hm hparent (by omega)]

/-- The listing from the roots shows every element once. -/
theorem listing_perm (hkeys : (nodes.map key).Nodup)
    (hacyclic : Acyclic (Above key parent nodes)) {depth : Nat} (hdepth : nodes.length ≤ depth) :
    (listing key (childrenOf parent nodes) depth (rootsOf key parent nodes)).Perm nodes := by
  classical
  rw [List.perm_iff_count]
  intro n
  by_cases hn : n ∈ nodes
  · have hheight := height_lt_length hn (hacyclic (key n))
    rw [count_listing hkeys hn (hacyclic.founded (key n)) (by omega),
      List.count_eq_one_of_mem (List.Nodup.of_map key hkeys) hn]
  · rw [List.count_eq_zero_of_not_mem hn]
    apply List.count_eq_zero_of_not_mem
    intro h
    exact hn (mem_of_mem_listing (fun m hm => mem_of_mem_rootsOf hm) h)

end
end Forest
end RagService
