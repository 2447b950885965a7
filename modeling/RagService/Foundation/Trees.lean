import Mathlib.Data.List.Forall2
import RagService.Foundation.Forests

/-!
# Trees out of forests

A table of children links trees below its elements.  Where the elements are a forest, there is
exactly one such tree below each of them: the tree that is grown as deep as the elements go.
The trees below the roots have every element once.
-/

namespace RagService
namespace Forest

inductive Tree (α : Type) where
  | node (value : α) (children : List (Tree α))

namespace Tree

variable {α : Type}

def value : Tree α -> α
  | node value _ => value

def children : Tree α -> List (Tree α)
  | node _ children => children

mutual

def subtrees : Tree α -> List (Tree α)
  | node value children => node value children :: subtreesOf children

def subtreesOf : List (Tree α) -> List (Tree α)
  | [] => []
  | tree :: rest => tree.subtrees ++ subtreesOf rest

end

theorem subtreesOf_eq (trees : List (Tree α)) : subtreesOf trees = trees.flatMap subtrees := by
  induction trees with
  | nil => rfl
  | cons tree rest ih => rw [subtreesOf, List.flatMap_cons, ih]

theorem mem_subtreesOf {s : Tree α} {trees : List (Tree α)} :
    s ∈ subtreesOf trees ↔ exists tree, tree ∈ trees ∧ s ∈ tree.subtrees := by
  rw [subtreesOf_eq, List.mem_flatMap]

end Tree

section

variable {α Key : Type} (key : α -> Key) (children : Key -> List α)

/-- The tree that the table of children links below an element. -/
inductive Linked : α -> Tree α -> Prop where
  | node {n : α} {trees : List (Tree α)} (length : trees.length = (children (key n)).length)
      (each : forall (i : Nat) (child : α) (tree : Tree α), (children (key n))[i]? = some child ->
        trees[i]? = some tree -> Linked child tree) :
      Linked n (.node n trees)

/-- The tree below an element, as deep as this. -/
def grow : Nat -> α -> Tree α
  | 0, n => .node n []
  | depth + 1, n => .node n ((children (key n)).map (grow depth))

variable {key children} {n : α} {tree : Tree α} {ns : List α} {trees : List (Tree α)}

theorem Linked.value_eq (h : Linked key children n tree) : tree.value = n := by
  cases h with
  | node length each => rfl

theorem Linked.of_forall₂ (h : List.Forall₂ (Linked key children) (children (key n)) trees) :
    Linked key children n (.node n trees) := by
  apply Linked.node h.length_eq.symm
  intro i child tree hchild htree
  rcases List.getElem?_eq_some_iff.mp hchild with ⟨hi, rfl⟩
  rcases List.getElem?_eq_some_iff.mp htree with ⟨hi', rfl⟩
  exact h.get hi hi'

theorem Linked.forall₂ (h : Linked key children n (.node n trees)) :
    List.Forall₂ (Linked key children) (children (key n)) trees := by
  cases h with
  | node length each =>
      apply List.forall₂_iff_get.mpr
      constructor
      · exact length.symm
      · intro i hi hi'
        exact each i _ _ (List.getElem?_eq_getElem hi) (List.getElem?_eq_getElem hi')

theorem values_of_linked (h : List.Forall₂ (Linked key children) ns trees) :
    trees.map Tree.value = ns := by
  induction h with
  | nil => rfl
  | cons hfirst _ ih => rw [List.map_cons, hfirst.value_eq, ih]

theorem Linked.unique (h : Linked key children n tree) {tree' : Tree α}
    (h' : Linked key children n tree') : tree = tree' := by
  induction h generalizing tree' with
  | node length each ih =>
      cases h' with
      | node length' each' =>
          congr 1
          apply List.ext_getElem
          · exact length.trans length'.symm
          · intro i hi hi'
            have hchild := List.getElem?_eq_getElem (length ▸ hi)
            exact ih i _ _ hchild (List.getElem?_eq_getElem hi)
              (each' i _ _ hchild (List.getElem?_eq_getElem hi'))

theorem linked_unique (h : List.Forall₂ (Linked key children) ns trees) {trees' : List (Tree α)}
    (h' : List.Forall₂ (Linked key children) ns trees') : trees = trees' := by
  induction h generalizing trees' with
  | nil =>
      cases h'
      rfl
  | cons hfirst _ ih =>
      cases h' with
      | cons hfirst' hrest' => rw [hfirst.unique hfirst', ih hrest']

theorem Linked.children_eq (h : Linked key children n tree) {s : Tree α} (hs : s ∈ tree.subtrees) :
    s.children.map Tree.value = children (key s.value) := by
  induction h with
  | @node n trees length each ih =>
      have hlinked : Linked key children n (.node n trees) := .node length each
      rw [Tree.subtrees, List.mem_cons] at hs
      cases hs with
      | inl hroot =>
          rw [hroot]
          exact values_of_linked hlinked.forall₂
      | inr hbelow =>
          rcases Tree.mem_subtreesOf.mp hbelow with ⟨tree, htree, hs⟩
          rcases List.mem_iff_getElem?.mp htree with ⟨i, hi⟩
          have hbound : i < (children (key n)).length :=
            length ▸ (List.getElem?_eq_some_iff.mp hi).1
          exact ih i _ tree (List.getElem?_eq_getElem hbound) hi hs

theorem values_subtreesOf_grow (depth : Nat) (ns : List α) :
    (Tree.subtreesOf (ns.map (grow key children depth))).map Tree.value =
      listing key children (depth + 1) ns := by
  induction depth generalizing ns with
  | zero =>
      induction ns with
      | nil => rfl
      | cons n rest ih =>
          rw [List.map_cons, Tree.subtreesOf, List.map_append, ih]
          rfl
  | succ depth ihdepth =>
      induction ns with
      | nil => rfl
      | cons n rest ih =>
          rw [List.map_cons, Tree.subtreesOf, List.map_append, ih, grow, Tree.subtrees,
            List.map_cons, ihdepth]
          rfl

end

section

variable {α Key : Type} [DecidableEq Key] {key : α -> Key} {parent : α -> Option Key}
variable {nodes : List α}

theorem height_lt_of_mem_childrenOf (hacyclic : Acyclic (Above key parent nodes)) {n c : α}
    (hn : n ∈ nodes) (hc : c ∈ childrenOf parent nodes (key n)) :
    height key parent nodes (key n) < height key parent nodes (key c) := by
  rcases List.mem_filter.mp hc with ⟨hmem, hparent⟩
  exact height_lt_height hmem hn (hacyclic (key n)) (of_decide_eq_true hparent)

/-- The grown tree is the linked one when it is as deep as the elements go. -/
theorem linked_grow (hacyclic : Acyclic (Above key parent nodes)) {depth : Nat} {n : α}
    (hn : n ∈ nodes) (hdepth : nodes.length ≤ depth + 1 + height key parent nodes (key n)) :
    Linked key (childrenOf parent nodes) n (grow key (childrenOf parent nodes) depth n) := by
  induction depth generalizing n with
  | zero =>
      have hnil : childrenOf parent nodes (key n) = [] := by
        apply List.eq_nil_iff_forall_not_mem.mpr
        intro c hc
        have hlt := height_lt_length (mem_of_mem_childrenOf hc) (hacyclic (key c))
        have habove := height_lt_of_mem_childrenOf hacyclic hn hc
        omega
      apply Linked.of_forall₂
      rw [hnil]
      exact .nil
  | succ depth ih =>
      apply Linked.of_forall₂
      rw [List.forall₂_map_right_iff, List.forall₂_same]
      intro c hc
      have habove := height_lt_of_mem_childrenOf hacyclic hn hc
      apply ih (mem_of_mem_childrenOf hc)
      omega

/-- The trees below the roots. -/
def forestOf (key : α -> Key) (parent : α -> Option Key) (nodes : List α) : List (Tree α) :=
  (rootsOf key parent nodes).map (grow key (childrenOf parent nodes) nodes.length)

theorem linked_forestOf (hacyclic : Acyclic (Above key parent nodes)) :
    List.Forall₂ (Linked key (childrenOf parent nodes)) (rootsOf key parent nodes)
      (forestOf key parent nodes) := by
  unfold forestOf
  rw [List.forall₂_map_right_iff, List.forall₂_same]
  intro n hn
  apply linked_grow hacyclic (mem_of_mem_rootsOf hn)
  omega

/-- The trees below the roots have every element once. -/
theorem forestOf_perm (hkeys : (nodes.map key).Nodup)
    (hacyclic : Acyclic (Above key parent nodes)) :
    ((Tree.subtreesOf (forestOf key parent nodes)).map Tree.value).Perm nodes := by
  unfold forestOf
  rw [values_subtreesOf_grow]
  exact listing_perm hkeys hacyclic (Nat.le_succ _)

end

end Forest
end RagService
