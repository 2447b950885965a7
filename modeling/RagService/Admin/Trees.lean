import RagService.Admin.Services
import RagService.Foundation.Dicts
import RagService.Foundation.Trees

/-!
# Trees of departments and menus

`build_tree`, and the trees of the two services.  A node of the answer holds its children;
as nodes are built up while they are referred to, the children are kept by the id of the
node.
-/

namespace RagService
namespace Admin

/-!
# Building a tree

`traversal_to_tree` goes through the nodes and puts each among the children of its parent, or
at the top; `recursive_to_tree` looks for the children of each node.
-/

section

variable {α : Type} (parentId : α -> Option Nat)

structure TreeData (α : Type) where
  tree : List (Row α)
  children : Nat -> List (Row α)

def placeNode [DecidableEq α] (nodeDict : Dict Nat (Row α)) (s : TreeData α) (node : Row α) :
    TreeData α :=
  match parentId node.value with
  | none => { s with tree := s.tree ++ [node] }
  | some parentId =>
      match nodeDict.get parentId with
      | some parentNode =>
          if node ∈ s.children parentNode.id then s
          else
            { s with
              children := Function.update s.children parentNode.id
                (s.children parentNode.id ++ [node]) }
      | none => if node ∈ s.tree then s else { s with tree := s.tree ++ [node] }

def traversalToTree [DecidableEq α] (nodes : List (Row α)) : TreeData α :=
  let nodeDict : Dict Nat (Row α) := Dict.ofPairs (nodes.map fun node => (node.id, node))
  nodes.foldl (placeNode parentId nodeDict) ⟨[], fun _ => []⟩

/-- `get_tree_data` of rows with these values of the column `sort`. -/
def getTreeData [DecidableEq α] (sort : Row α -> Int) (rows : List (Row α)) : TreeData α :=
  traversalToTree parentId (rows.mergeSort fun x y => sort x ≤ sort y)

/-- The rows in the answer, down to a depth. -/
def TreeData.rows (t : TreeData α) (depth : Nat) : List (Row α) :=
  Forest.listing Row.id t.children depth t.tree

/-- `recursive_to_tree`, as deep as this. -/
def recursiveToTree (nodes : List (Row α)) : Nat -> Option Nat -> Option (List (Forest.Tree (Row α)))
  | 0, _ => none
  | fuel + 1, parent =>
      (nodes.filter fun node => parentId node.value = parent).mapM fun node => do
        let childNodes <- recursiveToTree nodes fuel (some node.id)
        some (.node node childNodes)

end

/-!
# What the loop builds

After each turn the loop has built the tree of the nodes so far.  In the end that is the
listing of the rows from their roots down, which shows each row once when the rows are a
forest.
-/

section

variable {α : Type} [DecidableEq α] {parentId : α -> Option Nat} {nodes : List (Row α)}

def parentOf (parentId : α -> Option Nat) (node : Row α) : Option Nat :=
  parentId node.value

/-- What the loop has built of the first nodes. -/
def builtOf (parentId : α -> Option Nat) (nodes done : List (Row α)) : TreeData α where
  tree := done.filter fun n => (parentOf parentId n).all fun p => p ∉ nodes.map Row.id
  children k :=
    if k ∈ nodes.map Row.id then done.filter fun n => parentOf parentId n = some k else []

omit [DecidableEq α] in
theorem get_nodeDict (p : Nat) :
    ((Dict.ofPairs (nodes.map fun node => (node.id, node))).get p).elim (p ∉ nodes.map Row.id)
      fun node => node ∈ nodes ∧ node.id = p := by
  rw [Dict.get_ofPairs]
  cases hlast : ((nodes.map fun node => (node.id, node)).filter fun q => q.1 = p).getLast? with
  | none =>
      intro h
      rcases List.mem_map.mp h with ⟨node, hnode, rfl⟩
      rw [List.getLast?_eq_none_iff, List.filter_eq_nil_iff] at hlast
      exact hlast _ (List.mem_map_of_mem hnode) (decide_eq_true rfl)
  | some q =>
      rcases List.mem_filter.mp (List.mem_of_getLast? hlast) with ⟨hmem, hq⟩
      rcases List.mem_map.mp hmem with ⟨node, hnode, rfl⟩
      exact ⟨hnode, of_decide_eq_true hq⟩

omit [DecidableEq α] in
theorem builtOf_concat (done : List (Row α)) (node : Row α) :
    builtOf parentId nodes (done ++ [node]) =
      { tree := (builtOf parentId nodes done).tree ++
          if (parentOf parentId node).all (fun p => p ∉ nodes.map Row.id) then [node] else []
        children := fun k => (builtOf parentId nodes done).children k ++
          if k ∈ nodes.map Row.id ∧ parentOf parentId node = some k then [node] else [] } := by
  unfold builtOf
  congr 1
  · rw [List.filter_append, List.filter_singleton, Bool.cond_eq_ite]
  · funext k
    by_cases hk : k ∈ nodes.map Row.id
    · dsimp only
      rw [if_pos hk, if_pos hk, List.filter_append, List.filter_singleton]
      by_cases hparent : parentOf parentId node = some k
      · rw [if_pos ⟨hk, hparent⟩, decide_eq_true hparent]
        rfl
      · rw [if_neg fun h => hparent h.2, decide_eq_false hparent]
        rfl
    · dsimp only
      rw [if_neg hk, if_neg hk, if_neg fun h => hk h.1]
      rfl

theorem placeNode_built {done : List (Row α)} {node : Row α} (hnode : node ∉ done) :
    placeNode parentId (Dict.ofPairs (nodes.map fun node => (node.id, node)))
      (builtOf parentId nodes done) node = builtOf parentId nodes (done ++ [node]) := by
  have hfilter : forall p : Row α -> Bool, node ∉ done.filter p :=
    fun p h => hnode (List.mem_filter.mp h).1
  rw [builtOf_concat]
  unfold placeNode
  cases hparent : parentId node.value with
  | none => simp [parentOf, hparent]
  | some p =>
      have hget := @get_nodeDict α nodes p
      have hparentOf : parentOf parentId node = some p := hparent
      simp only [hparentOf]
      cases hfound : (Dict.ofPairs (nodes.map fun node => (node.id, node))).get p with
      | none =>
          rw [hfound] at hget
          have hp : p ∉ nodes.map Row.id := hget
          have htree : node ∉ (builtOf parentId nodes done).tree := hfilter _
          have hchildren : forall k, ¬ (k ∈ nodes.map Row.id ∧ some p = some k) := by
            intro k h
            cases h.2
            exact hp h.1
          dsimp only
          rw [if_neg htree, Option.all_some, decide_eq_true hp, if_pos rfl]
          congr 1
          funext k
          rw [if_neg (hchildren k), List.append_nil]
      | some parentNode =>
          rw [hfound] at hget
          rcases hget with ⟨hmem, rfl⟩
          have hid : parentNode.id ∈ nodes.map Row.id := List.mem_map_of_mem hmem
          have hchildren : node ∉ (builtOf parentId nodes done).children parentNode.id := by
            unfold builtOf
            dsimp only
            rw [if_pos hid]
            exact hfilter _
          dsimp only
          rw [if_neg hchildren, Option.all_some, decide_eq_false (not_not.mpr hid)]
          congr 1
          · exact (List.append_nil _).symm
          · funext k
            by_cases hk : k = parentNode.id
            · subst hk
              rw [Function.update_self, if_pos ⟨hid, rfl⟩]
            · rw [Function.update_of_ne hk, if_neg fun h => hk (Option.some.inj h.2).symm,
                List.append_nil]

theorem traversalToTree_eq (hids : (nodes.map Row.id).Nodup) :
    traversalToTree parentId nodes = builtOf parentId nodes nodes := by
  have hfold : forall rest done, done ++ rest = nodes ->
      rest.foldl (placeNode parentId (Dict.ofPairs (nodes.map fun node => (node.id, node))))
        (builtOf parentId nodes done) = builtOf parentId nodes nodes := by
    intro rest
    induction rest with
    | nil =>
        intro done hdone
        rw [List.append_nil] at hdone
        rw [hdone]
        rfl
    | cons node rest ih =>
        intro done hdone
        have hnode : node ∉ done := by
          have hnodup := List.Nodup.of_map Row.id hids
          rw [← hdone, List.nodup_append] at hnodup
          exact fun h => hnodup.2.2 node h node (.head _) rfl
        rw [List.foldl_cons, placeNode_built hnode]
        apply ih
        rw [List.append_assoc]
        exact hdone
  have hstart : builtOf parentId nodes [] = ⟨[], fun _ => []⟩ := by
    simp [builtOf]
  have h := hfold nodes [] rfl
  rw [hstart] at h
  exact h

theorem rows_traversalToTree (hids : (nodes.map Row.id).Nodup) (depth : Nat) :
    (traversalToTree parentId nodes).rows depth =
      Forest.listing Row.id (Forest.childrenOf (parentOf parentId) nodes) depth
        (Forest.rootsOf Row.id (parentOf parentId) nodes) := by
  have hchildren : forall n, n ∈ nodes -> (builtOf parentId nodes nodes).children n.id =
      Forest.childrenOf (parentOf parentId) nodes n.id :=
    fun n hn => if_pos (List.mem_map_of_mem hn)
  unfold TreeData.rows
  rw [traversalToTree_eq hids]
  exact Forest.listing_congr hchildren fun n hn => Forest.mem_of_mem_rootsOf hn

/-- The answer shows each row once when the rows are a forest. -/
theorem rows_getTreeData (sort : Row α -> Int) {rows : List (Row α)}
    (hids : (rows.map Row.id).Nodup)
    (hacyclic : Forest.Acyclic (Forest.Above Row.id (parentOf parentId) rows)) {depth : Nat}
    (hdepth : rows.length ≤ depth) :
    ((getTreeData parentId sort rows).rows depth).Perm rows := by
  have hsorted := List.mergeSort_perm rows fun x y => sort x ≤ sort y
  have hmem : forall n, n ∈ rows.mergeSort (fun x y => sort x ≤ sort y) -> n ∈ rows :=
    fun n hn => hsorted.mem_iff.mp hn
  have hids' : ((rows.mergeSort fun x y => sort x ≤ sort y).map Row.id).Nodup :=
    (hsorted.map Row.id).nodup_iff.mpr hids
  have hacyclic' : Forest.Acyclic (Forest.Above Row.id (parentOf parentId)
      (rows.mergeSort fun x y => sort x ≤ sort y)) := by
    apply hacyclic.mono
    intro x y h
    rcases h with ⟨n, hn, h⟩
    exact ⟨n, hmem n hn, h⟩
  have hlisting := Forest.listing_perm hids' hacyclic' (hsorted.length_eq.trans_le hdepth)
  unfold getTreeData
  rw [rows_traversalToTree hids']
  exact hlisting.trans hsorted

end

end Admin
end RagService
