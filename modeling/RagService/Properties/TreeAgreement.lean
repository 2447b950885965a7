import RagService.Admin.Trees
import RagService.Foundation.Traversals

/-!
# The two ways to build a tree

The loop and the recursion over nodes with ids of their own and no cycle.  The loop shows every
node once, below its parent or at the top; if every parent is there, the recursion comes to an
end with the same forest.  A table of children that agrees at the nodes links the same trees.
-/

namespace RagService
namespace Admin

open Forest

section

variable {α : Type} {parentId : α -> Option Nat} {nodes : List (Row α)}

/-- The nodes above others. -/
abbrev NodeAbove (parentId : α -> Option Nat) (nodes : List (Row α)) : Nat -> Nat -> Prop :=
  Above Row.id (parentOf parentId) nodes

/-- The trees that the answer of the loop consists of. -/
def TreeData.HasForest (t : TreeData α) (forest : List (Forest.Tree (Row α))) : Prop :=
  List.Forall₂ (Linked Row.id t.children) t.tree forest

theorem linked_congr {children : Nat -> List (Row α)}
    (hchildren : forall n, n ∈ nodes -> children n.id =
      childrenOf (parentOf parentId) nodes n.id)
    {n : Row α} (hn : n ∈ nodes) {tree : Forest.Tree (Row α)} :
    Linked Row.id (childrenOf (parentOf parentId) nodes) n tree -> Linked Row.id children n tree := by
  intro h
  induction h with
  | node length each ih =>
      rw [← hchildren _ hn] at length each ih
      apply Linked.node length
      intro i child tree hchild htree
      apply ih i child tree hchild htree
      rw [hchildren _ hn] at hchild
      exact mem_of_mem_childrenOf (List.mem_of_getElem? hchild)

theorem hasForest_traversalToTree [DecidableEq α] (hids : (nodes.map Row.id).Nodup)
    (hacyclic : Acyclic (NodeAbove parentId nodes)) :
    (traversalToTree parentId nodes).HasForest (forestOf Row.id (parentOf parentId) nodes) := by
  have hchildren : forall n, n ∈ nodes -> (builtOf parentId nodes nodes).children n.id =
      childrenOf (parentOf parentId) nodes n.id :=
    fun n hn => if_pos (List.mem_map_of_mem hn)
  unfold TreeData.HasForest
  rw [traversalToTree_eq hids]
  show List.Forall₂ _ (rootsOf Row.id (parentOf parentId) nodes) _
  have hlinked := linked_forestOf hacyclic
  have hmem := (List.forall₂_and_left _ _).mpr ⟨fun n hn => mem_of_mem_rootsOf hn, hlinked⟩
  exact hmem.imp fun n tree h => linked_congr hchildren h.1 h.2

theorem recursiveToTree_below (hacyclic : Acyclic (NodeAbove parentId nodes)) {fuel : Nat}
    {n : Row α} (hn : n ∈ nodes)
    (hfuel : nodes.length ≤ fuel + height Row.id (parentOf parentId) nodes n.id) :
    exists trees, recursiveToTree parentId nodes fuel (some n.id) = some trees ∧
      List.Forall₂ (Linked Row.id (childrenOf (parentOf parentId) nodes))
        (childrenOf (parentOf parentId) nodes n.id) trees := by
  induction fuel generalizing n with
  | zero =>
      have hheight := height_lt_length hn (hacyclic n.id)
      omega
  | succ fuel ih =>
      unfold recursiveToTree
      apply Traversals.mapM_of_forall
      intro c hc
      have hheight := height_lt_of_mem_childrenOf hacyclic hn hc
      have hmem : c ∈ nodes := mem_of_mem_childrenOf hc
      rcases ih hmem (by omega) with ⟨trees, htrees, hlinked⟩
      exists .node c trees
      constructor
      · rw [htrees]
        rfl
      · exact .of_forall₂ hlinked

/-- The recursion from the top gives the trees below the nodes without a parent. -/
theorem recursiveToTree_eq (hacyclic : Acyclic (NodeAbove parentId nodes))
    (hparents : forall n p, n ∈ nodes -> parentId n.value = some p -> p ∈ nodes.map Row.id)
    {fuel : Nat} (hfuel : nodes.length < fuel) :
    recursiveToTree parentId nodes fuel none =
      some (forestOf Row.id (parentOf parentId) nodes) := by
  have hroots : (nodes.filter fun node => parentId node.value = none) =
      rootsOf Row.id (parentOf parentId) nodes := by
    unfold rootsOf parentOf
    apply List.filter_congr
    intro n hn
    cases hparent : parentId n.value with
    | none => rfl
    | some p =>
        rw [Option.all_some, decide_eq_false (not_not.mpr (hparents n p hn hparent))]
        rfl
  cases fuel with
  | zero => cases hfuel
  | succ fuel =>
      have hpass : exists trees, recursiveToTree parentId nodes (fuel + 1) none = some trees ∧
          List.Forall₂ (Linked Row.id (childrenOf (parentOf parentId) nodes))
            (nodes.filter fun node => parentId node.value = none) trees := by
        unfold recursiveToTree
        apply Traversals.mapM_of_forall
        intro n hn
        have hfuel' : nodes.length ≤ fuel + height Row.id (parentOf parentId) nodes n.id := by
          omega
        rcases recursiveToTree_below hacyclic (List.mem_filter.mp hn).1 hfuel' with
          ⟨trees, htrees, hlinked⟩
        exists .node n trees
        constructor
        · rw [htrees]
          rfl
        · exact .of_forall₂ hlinked
      rcases hpass with ⟨trees, htrees, hlinked⟩
      rw [hroots] at hlinked
      rw [htrees, linked_unique hlinked (linked_forestOf hacyclic)]

/--
The loop returns one forest: every node is in it once, the nodes with a parent among the nodes
lie directly below it, the others at the top, all in their order.  If every parent is there,
the recursion returns the same forest.
-/
theorem traversalToTree_forest [DecidableEq α] (hids : (nodes.map Row.id).Nodup)
    (hacyclic : Acyclic (NodeAbove parentId nodes)) :
    exists forest,
      (forall forest', (traversalToTree parentId nodes).HasForest forest' ↔ forest' = forest) ∧
      ((Forest.Tree.subtreesOf forest).map Forest.Tree.value).Perm nodes ∧
      forest.map Forest.Tree.value =
        (nodes.filter fun n => (parentId n.value).all fun p => p ∉ nodes.map Row.id) ∧
      (forall s, s ∈ Forest.Tree.subtreesOf forest -> s.children.map Forest.Tree.value =
        nodes.filter fun n => parentId n.value = some s.value.id) ∧
      ((forall n p, n ∈ nodes -> parentId n.value = some p -> p ∈ nodes.map Row.id) ->
        forall fuel, nodes.length < fuel ->
          recursiveToTree parentId nodes fuel none = some forest) := by
  have hforest := hasForest_traversalToTree hids hacyclic
  have hlinked := linked_forestOf hacyclic
  refine ⟨forestOf Row.id (parentOf parentId) nodes, ?_, forestOf_perm hids hacyclic,
    values_of_linked hlinked, ?_, ?_⟩
  · intro forest'
    constructor
    · exact fun h => linked_unique h hforest
    · intro heq
      rw [heq]
      exact hforest
  · intro s hs
    rcases Forest.Tree.mem_subtreesOf.mp hs with ⟨tree, htree, hin⟩
    rcases List.mem_map.mp htree with ⟨n, hn, rfl⟩
    have hroot := linked_grow hacyclic (mem_of_mem_rootsOf hn) (Nat.le_add_right_of_le (Nat.le_succ nodes.length))
    exact hroot.children_eq hin
  · intro hparents fuel hfuel
    exact recursiveToTree_eq hacyclic hparents hfuel

end

def threeNodes : List (Row (Option Nat)) :=
  [⟨3, 0, some 1⟩, ⟨1, 0, none⟩, ⟨2, 0, some 1⟩]

theorem traversalToTree_forest_three :
    exists forest,
      (forall forest', (traversalToTree id threeNodes).HasForest forest' ↔ forest' = forest) ∧
      ((Forest.Tree.subtreesOf forest).map Forest.Tree.value).Perm threeNodes ∧
      forest.map Forest.Tree.value =
        (threeNodes.filter fun n => n.value.all fun p => p ∉ threeNodes.map Row.id) ∧
      (forall s, s ∈ Forest.Tree.subtreesOf forest -> s.children.map Forest.Tree.value =
        threeNodes.filter fun n => n.value = some s.value.id) ∧
      forall fuel, 3 < fuel -> recursiveToTree id threeNodes fuel none = some forest := by
  have hless : forall n, n ∈ threeNodes ->
      n.value.all (fun p => p < n.id ∧ p ∈ threeNodes.map Row.id) = true := by decide
  have hparent : forall n p, n ∈ threeNodes -> n.value = some p ->
      p < n.id ∧ p ∈ threeNodes.map Row.id := by
    intro n p hn hp
    have hall := hless n hn
    rw [hp] at hall
    exact of_decide_eq_true hall
  have hacyclic : Acyclic (NodeAbove id threeNodes) := by
    apply acyclic_of_rank id
    intro x p habove
    rcases habove with ⟨n, hn, hx, hp⟩
    rw [← hx]
    exact (hparent n p hn hp).1
  rcases traversalToTree_forest (by decide) hacyclic with
    ⟨forest, hforest, honce, hroots, hchildren, hrecursive⟩
  exact ⟨forest, hforest, honce, hroots, hchildren,
    hrecursive fun n p hn hp => (hparent n p hn hp).2⟩

end Admin
end RagService
