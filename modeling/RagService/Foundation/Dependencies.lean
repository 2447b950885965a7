import Mathlib.Data.List.Chain
import Mathlib.Data.List.TakeWhile
import RagService.Foundation.Forests

/-!
# Dependencies

Nodes are put in an order in which each comes after the nodes it depends on, by visits
that go depth first and remember the nodes on the way.
-/

namespace RagService
namespace Dependencies

variable {α Key : Type}

/-- How nodes are told apart, what they depend on, and which node has a key. -/
structure Graph (α Key : Type) where
  key : α -> Key
  dependsOn : α -> Option (List Key)
  find : Key -> Option α

inductive Failure (Key : Type) where
  | cycle (path : List Key)
  | missing (key dependency : Key)
  /-- the visits go deeper than their limit -/
  | tooDeep
  deriving DecidableEq

structure Visits (α Key : Type) where
  visited : List Key
  ordered : List α

namespace Graph

def needs (G : Graph α Key) (x : α) : List Key :=
  (G.dependsOn x).getD []

def visitNames (G : Graph α Key) (visit : Visits α Key -> α -> Except (Failure Key) (Visits α Key))
    (x : α) : List Key -> Visits α Key -> Except (Failure Key) (Visits α Key)
  | [], s => .ok s
  | name :: rest, s =>
      match G.find name with
      | none => .error (.missing (G.key x) name)
      | some y =>
          match visit s y with
          | .error e => .error e
          | .ok s' => G.visitNames visit x rest s'

/-- Visit a node; the keys of the nodes on the way to it are given. -/
def visit [DecidableEq Key] (G : Graph α Key) :
    Nat -> List Key -> Visits α Key -> α -> Except (Failure Key) (Visits α Key)
  | 0, _, _, _ => .error .tooDeep
  | depth + 1, visiting, s, x =>
      if G.key x ∈ s.visited then .ok s
      else if G.key x ∈ visiting then
        .error (.cycle (visiting.dropWhile (· ≠ G.key x) ++ [G.key x]))
      else
        match G.visitNames (G.visit depth (visiting ++ [G.key x])) x (G.needs x) s with
        | .error e => .error e
        | .ok s' => .ok ⟨s'.visited ++ [G.key x], s'.ordered ++ [x]⟩

def visitEach [DecidableEq Key] (G : Graph α Key) (depth : Nat) :
    List α -> Visits α Key -> Except (Failure Key) (Visits α Key)
  | [], s => .ok s
  | x :: rest, s =>
      match G.visit depth [] s x with
      | .error e => .error e
      | .ok s' => G.visitEach depth rest s'

/-- No way through the nodes is longer than their number. -/
def order [DecidableEq Key] (G : Graph α Key) (nodes : List α) : Except (Failure Key) (List α) :=
  match G.visitEach (nodes.length + 1) nodes ⟨[], []⟩ with
  | .error e => .error e
  | .ok s => .ok s.ordered

/-- Every node comes after the nodes it depends on. -/
def DependenciesFirst (G : Graph α Key) (ordered : List α) : Prop :=
  forall before x after, ordered = before ++ x :: after ->
    forall name, name ∈ G.needs x -> name ∈ before.map G.key

def DependsOn (G : Graph α Key) (nodes : List α) (a b : Key) : Prop :=
  exists x, x ∈ nodes ∧ G.key x = a ∧ b ∈ G.needs x

structure Indexed (G : Graph α Key) (nodes : List α) : Prop where
  keys : (nodes.map G.key).Nodup
  find : forall k x, G.find k = some x ↔ x ∈ nodes ∧ G.key x = k

end Graph

variable {G : Graph α Key} {nodes : List α} {s s' : Visits α Key} {x : α}
variable {visiting : List Key} {k : Key}

/-!
# What visits keep

What has been visited is in order, and a visit only adds to it: a node comes last when its
dependencies have been visited.
-/

structure Ordered (G : Graph α Key) (nodes : List α) (s : Visits α Key) : Prop where
  visited : s.visited = s.ordered.map G.key
  mem : forall x, x ∈ s.ordered -> x ∈ nodes
  nodup : s.visited.Nodup
  first : G.DependenciesFirst s.ordered

/-- Visits go on, and leave out the nodes on the way. -/
structure Extends (G : Graph α Key) (nodes : List α) (visiting : List Key)
    (s s' : Visits α Key) : Prop where
  ordered : Ordered G nodes s'
  keeps : forall k, k ∈ s.visited -> k ∈ s'.visited
  fresh : forall k, k ∈ visiting -> k ∈ s'.visited -> k ∈ s.visited

theorem Ordered.initial : Ordered G nodes ⟨[], []⟩ := by
  constructor
  · rfl
  · nofun
  · exact .nil
  · intro before x after h
    exact absurd h (by simp)

theorem Extends.refl (h : Ordered G nodes s) :
    Extends G nodes visiting s s :=
  ⟨h, fun _ hk => hk, fun _ _ hk => hk⟩

theorem Extends.trans {s'' : Visits α Key}
    (h : Extends G nodes visiting s s') (h' : Extends G nodes visiting s' s'') :
    Extends G nodes visiting s s'' :=
  ⟨h'.ordered, fun k hk => h'.keeps k (h.keeps k hk),
    fun k hk hk' => h.fresh k hk (h'.fresh k hk hk')⟩

theorem Ordered.snoc (h : Ordered G nodes s) (hx : x ∈ nodes) (hnew : G.key x ∉ s.visited)
    (hneeds : forall name, name ∈ G.needs x -> name ∈ s.visited) :
    Ordered G nodes ⟨s.visited ++ [G.key x], s.ordered ++ [x]⟩ := by
  constructor
  · rw [h.visited, List.map_append]
    rfl
  · intro y hy
    cases List.mem_append.mp hy with
    | inl hold => exact h.mem y hold
    | inr hlast =>
        rw [List.mem_singleton.mp hlast]
        exact hx
  · rw [← List.concat_eq_append]
    exact List.Nodup.concat hnew h.nodup
  · intro before y after heq name hname
    have heq : s.ordered ++ [x] = before ++ y :: after := heq
    cases after.eq_nil_or_concat with
    | inl hnil =>
        rw [hnil] at heq
        rcases List.append_inj' heq rfl with ⟨hbefore, hlast⟩
        cases hlast
        rw [← hbefore, ← h.visited]
        exact hneeds name hname
    | inr hconcat =>
        rcases hconcat with ⟨init, last, hafter⟩
        rw [hafter, List.concat_eq_append, ← List.cons_append, ← List.append_assoc] at heq
        rcases List.append_inj' heq rfl with ⟨hordered, -⟩
        exact h.first before y init hordered name hname

theorem visitNames_keeps
    {visit : Visits α Key -> α -> Except (Failure Key) (Visits α Key)}
    (hindexed : G.Indexed nodes)
    (hvisit : forall s s' y, y ∈ nodes -> Ordered G nodes s -> visit s y = .ok s' ->
      Extends G nodes visiting s s' ∧ G.key y ∈ s'.visited)
    {names : List Key} (h : Ordered G nodes s) (hok : G.visitNames visit x names s = .ok s') :
    Extends G nodes visiting s s' ∧ forall name, name ∈ names -> name ∈ s'.visited := by
  induction names generalizing s with
  | nil =>
      cases hok
      exact ⟨.refl h, nofun⟩
  | cons name rest ih =>
      unfold Graph.visitNames at hok
      cases hfind : G.find name with
      | none =>
          rw [hfind] at hok
          cases hok
      | some y =>
          rcases (hindexed.find name y).mp hfind with ⟨hy, hkey⟩
          rw [hfind] at hok
          cases hy' : visit s y with
          | error e =>
              simp only [hy'] at hok
              cases hok
          | ok s₁ =>
              simp only [hy'] at hok
              rcases hvisit s s₁ y hy h hy' with ⟨hfirst, hvisited⟩
              rcases ih hfirst.ordered hok with ⟨hrest, hnames⟩
              constructor
              · exact hfirst.trans hrest
              · intro k hk
                cases List.mem_cons.mp hk with
                | inl heq =>
                    rw [heq, ← hkey]
                    exact hrest.keeps _ hvisited
                | inr hin => exact hnames k hin

variable [DecidableEq Key]

theorem visit_keeps (hindexed : G.Indexed nodes) {depth : Nat}
    (hx : x ∈ nodes) (h : Ordered G nodes s) (hok : G.visit depth visiting s x = .ok s') :
    Extends G nodes visiting s s' ∧ G.key x ∈ s'.visited := by
  induction depth generalizing visiting s s' x with
  | zero => cases hok
  | succ depth ih =>
      unfold Graph.visit at hok
      split at hok
      · rename_i hvisited
        cases hok
        exact ⟨.refl h, hvisited⟩
      · rename_i hnew
        split at hok
        · cases hok
        · rename_i hway
          split at hok
          · cases hok
          · rename_i s₁ hnames
            cases hok
            obtain ⟨hextends, hneeds⟩ := visitNames_keeps hindexed
              (fun s s' y hy hs hok => ih hy hs hok) h hnames
            -- no visit on the way has come to the node itself
            have hfresh : G.key x ∉ s₁.visited :=
              fun hin => hnew (hextends.fresh _ (List.mem_append_right _ (.head _)) hin)
            constructor
            · constructor
              · exact hextends.ordered.snoc hx hfresh hneeds
              · intro k hk
                exact List.mem_append_left _ (hextends.keeps k hk)
              · intro k hk hin
                cases List.mem_append.mp hin with
                | inl hold => exact hextends.fresh k (List.mem_append_left _ hk) hold
                | inr hlast =>
                    rw [List.mem_singleton.mp hlast] at hk
                    exact absurd hk hway
            · exact List.mem_append_right _ (.head _)

theorem visitEach_keeps (hindexed : G.Indexed nodes) {depth : Nat} {xs : List α}
    (hxs : forall x, x ∈ xs -> x ∈ nodes) (h : Ordered G nodes s)
    (hok : G.visitEach depth xs s = .ok s') :
    Extends G nodes [] s s' ∧ forall x, x ∈ xs -> G.key x ∈ s'.visited := by
  induction xs generalizing s with
  | nil =>
      cases hok
      exact ⟨.refl h, nofun⟩
  | cons y rest ih =>
      unfold Graph.visitEach at hok
      split at hok
      · cases hok
      · rename_i s₁ hy
        rcases visit_keeps hindexed (hxs y (.head _)) h hy with ⟨hfirst, hvisited⟩
        rcases ih (fun x hx => hxs x (.tail _ hx)) hfirst.ordered hok with ⟨hrest, hnames⟩
        constructor
        · exact hfirst.trans hrest
        · intro x hx
          cases List.mem_cons.mp hx with
          | inl heq =>
              rw [heq]
              exact hrest.keeps _ hvisited
          | inr hin => exact hnames x hin

/-!
# Visits that succeed

A visit does not come back to the nodes on the way, which are all above the node, when there
are no cycles.
-/

omit [DecidableEq Key] in
theorem mem_keys_snoc (hmem : forall v, v ∈ visiting -> v ∈ nodes.map G.key) (hx : x ∈ nodes) :
    forall v, v ∈ visiting ++ [G.key x] -> v ∈ nodes.map G.key := by
  intro v hv
  cases List.mem_append.mp hv with
  | inl hold => exact hmem v hold
  | inr hlast =>
      rw [List.mem_singleton.mp hlast]
      exact List.mem_map_of_mem hx

omit [DecidableEq Key] in
theorem length_le_of_keys (hnodup : visiting.Nodup)
    (hmem : forall v, v ∈ visiting -> v ∈ nodes.map G.key) : visiting.length ≤ nodes.length := by
  have hle := (List.subperm_of_subset hnodup hmem).length_le
  rwa [List.length_map] at hle

structure OnWay (G : Graph α Key) (nodes : List α) (visiting : List Key) (k : Key) : Prop where
  nodup : visiting.Nodup
  mem : forall v, v ∈ visiting -> v ∈ nodes.map G.key
  above : forall v, v ∈ visiting -> Relation.TransGen (G.DependsOn nodes) v k

omit [DecidableEq Key] in
theorem OnWay.next (h : OnWay G nodes visiting (G.key x)) (hx : x ∈ nodes)
    (hnew : G.key x ∉ visiting) {name : Key} (hname : name ∈ G.needs x) :
    OnWay G nodes (visiting ++ [G.key x]) name := by
  have hedge : G.DependsOn nodes (G.key x) name := ⟨x, hx, rfl, hname⟩
  constructor
  · rw [← List.concat_eq_append]
    exact List.Nodup.concat hnew h.nodup
  · exact mem_keys_snoc h.mem hx
  · intro v hv
    cases List.mem_append.mp hv with
    | inl hold => exact (h.above v hold).tail hedge
    | inr hlast =>
        rw [List.mem_singleton.mp hlast]
        exact .single hedge

omit [DecidableEq Key] in
theorem OnWay.length_le (h : OnWay G nodes visiting k) : visiting.length ≤ nodes.length :=
  length_le_of_keys h.nodup h.mem

omit [DecidableEq Key] in
theorem visitNames_ok {visit : Visits α Key -> α -> Except (Failure Key) (Visits α Key)}
    {names : List Key}
    (hvisit : forall name, name ∈ names -> exists y, G.find name = some y ∧
      forall s, exists s', visit s y = .ok s') (s : Visits α Key) :
    exists s', G.visitNames visit x names s = .ok s' := by
  induction names generalizing s with
  | nil => exact ⟨s, rfl⟩
  | cons name rest ih =>
      rcases hvisit name (.head _) with ⟨y, hfind, hy⟩
      rcases hy s with ⟨s₁, hs₁⟩
      rcases ih (fun k hk => hvisit k (.tail _ hk)) s₁ with ⟨s', hs'⟩
      exists s'
      unfold Graph.visitNames
      simp only [hfind, hs₁]
      exact hs'

theorem visit_ok (hindexed : G.Indexed nodes)
    (hacyclic : Forest.Acyclic (G.DependsOn nodes))
    (hfound : forall x, x ∈ nodes -> forall name, name ∈ G.needs x -> name ∈ nodes.map G.key)
    {depth : Nat} (hx : x ∈ nodes)
    (hway : OnWay G nodes visiting (G.key x))
    (hdepth : nodes.length < depth + visiting.length) (s : Visits α Key) :
    exists s', G.visit depth visiting s x = .ok s' := by
  induction depth generalizing visiting s x with
  | zero =>
      have hle := hway.length_le
      omega
  | succ depth ih =>
      have hnew : G.key x ∉ visiting := fun hin => hacyclic _ (hway.above _ hin)
      have hnames : exists s', G.visitNames (G.visit depth (visiting ++ [G.key x])) x (G.needs x)
          s = .ok s' := by
        apply visitNames_ok
        intro name hname
        rcases List.mem_map.mp (hfound x hx name hname) with ⟨y, hy, hkey⟩
        refine ⟨y, (hindexed.find name y).mpr ⟨hy, hkey⟩, ?_⟩
        apply ih hy
        · rw [hkey]
          exact hway.next hx hnew hname
        · rw [List.length_append, List.length_singleton]
          omega
      rcases hnames with ⟨s', hs'⟩
      unfold Graph.visit
      rw [if_neg hnew, hs']
      split
      · exact ⟨s, rfl⟩
      · exact ⟨_, rfl⟩

theorem visitEach_ok (hindexed : G.Indexed nodes)
    (hacyclic : Forest.Acyclic (G.DependsOn nodes))
    (hfound : forall x, x ∈ nodes -> forall name, name ∈ G.needs x -> name ∈ nodes.map G.key)
    {xs : List α} (hxs : forall x, x ∈ xs -> x ∈ nodes) (s : Visits α Key) :
    exists s', G.visitEach (nodes.length + 1) xs s = .ok s' := by
  induction xs generalizing s with
  | nil => exact ⟨s, rfl⟩
  | cons y rest ih =>
      have hy := visit_ok hindexed hacyclic hfound (hxs y (.head _))
        ⟨List.nodup_nil, nofun, nofun⟩ (Nat.lt_succ_self _) s
      rcases hy with ⟨s₁, hs₁⟩
      unfold Graph.visitEach
      rw [hs₁]
      exact ih (fun x hx => hxs x (.tail _ hx)) s₁

/-!
# Orders

An order that is found has every node once, after its dependencies.  Without cycles one is
found when every dependency is there.
-/

theorem order_spec (hindexed : G.Indexed nodes) {ordered : List α}
    (hok : G.order nodes = .ok ordered) : ordered.Perm nodes ∧ G.DependenciesFirst ordered := by
  unfold Graph.order at hok
  split at hok
  · cases hok
  · rename_i s hs
    cases hok
    rcases visitEach_keeps hindexed (fun x hx => hx) .initial hs with ⟨hextends, hall⟩
    have hordered := hextends.ordered
    constructor
    · apply (List.perm_ext_iff_of_nodup _ _).mpr
      · intro x
        constructor
        · exact hordered.mem x
        · intro hx
          have hvisited := hall x hx
          rw [hordered.visited] at hvisited
          rcases List.mem_map.mp hvisited with ⟨y, hy, hkey⟩
          rw [← List.inj_on_of_nodup_map hindexed.keys (hordered.mem y hy) hx hkey]
          exact hy
      · have hnodup := hordered.nodup
        rw [hordered.visited] at hnodup
        exact hnodup.of_map
      · exact hindexed.keys.of_map
    · exact hordered.first

/-- Without cycles an order is found when every dependency is there. -/
theorem order_ok_iff (hindexed : G.Indexed nodes)
    (hacyclic : Forest.Acyclic (G.DependsOn nodes)) :
    (exists ordered, G.order nodes = .ok ordered) ↔
      forall x, x ∈ nodes -> forall name, name ∈ G.needs x -> name ∈ nodes.map G.key := by
  constructor
  · intro h
    rcases h with ⟨ordered, hok⟩
    rcases order_spec hindexed hok with ⟨hperm, hfirst⟩
    intro x hx name hname
    rcases List.mem_iff_append.mp (hperm.mem_iff.mpr hx) with ⟨before, after, heq⟩
    rcases List.mem_map.mp (hfirst before x after heq name hname) with ⟨y, hy, hkey⟩
    rw [← hkey]
    apply List.mem_map_of_mem
    apply hperm.mem_iff.mp
    rw [heq]
    exact List.mem_append_left _ hy
  · intro hfound
    rcases visitEach_ok hindexed hacyclic hfound (fun x hx => hx) ⟨[], []⟩ with ⟨s, hs⟩
    exists s.ordered
    unfold Graph.order
    rw [hs]

/-!
# Visits that fail

A visit fails at a cycle or at a missing node, and never for its depth: a way that comes back
to one of its keys has gone around a cycle.  So no order is found exactly when a dependency is
missing or there is a cycle.
-/

/-- Keys that each depend on the next one, and the first is the last. -/
def Graph.IsCycle (G : Graph α Key) (nodes : List α) (path : List Key) : Prop :=
  exists k between, path = k :: between ++ [k] ∧ path.IsChain (G.DependsOn nodes)

inductive Graph.Explains (G : Graph α Key) (nodes : List α) : Failure Key -> Prop where
  | cycle {path : List Key} (h : G.IsCycle nodes path) : Explains G nodes (.cycle path)
  | missing {a b : Key} (needed : G.DependsOn nodes a b) (absent : b ∉ nodes.map G.key) :
      Explains G nodes (.missing a b)

structure Way (G : Graph α Key) (nodes : List α) (visiting : List Key) (k : Key) : Prop where
  nodup : visiting.Nodup
  mem : forall v, v ∈ visiting -> v ∈ nodes.map G.key
  chain : (visiting ++ [k]).IsChain (G.DependsOn nodes)

omit [DecidableEq Key] in
theorem Way.start (k : Key) : Way G nodes [] k :=
  ⟨List.nodup_nil, nofun, List.isChain_singleton k⟩

omit [DecidableEq Key] in
theorem Way.next (h : Way G nodes visiting (G.key x)) (hx : x ∈ nodes)
    (hnew : G.key x ∉ visiting) {name : Key} (hname : name ∈ G.needs x) :
    Way G nodes (visiting ++ [G.key x]) name := by
  constructor
  · rw [← List.concat_eq_append]
    exact List.Nodup.concat hnew h.nodup
  · exact mem_keys_snoc h.mem hx
  · rw [List.append_assoc, List.singleton_append, List.isChain_append_cons_cons]
    exact ⟨h.chain, ⟨x, hx, rfl, hname⟩, List.isChain_singleton name⟩

omit [DecidableEq Key] in
theorem Way.length_le (h : Way G nodes visiting k) : visiting.length ≤ nodes.length :=
  length_le_of_keys h.nodup h.mem

/-- A way that comes back to one of its keys has gone around a cycle. -/
theorem Way.isCycle (h : Way G nodes visiting k) (hk : k ∈ visiting) :
    G.IsCycle nodes (visiting.dropWhile (· ≠ k) ++ [k]) := by
  have hsplit := List.takeWhile_append_dropWhile (p := (· ≠ k)) (l := visiting)
  have hchain := h.chain
  rw [← hsplit, List.append_assoc] at hchain
  cases hdrop : visiting.dropWhile (· ≠ k) with
  | nil =>
      have hnone := List.dropWhile_eq_nil_iff.mp hdrop k hk
      exact absurd rfl (of_decide_eq_true hnone)
  | cons first between =>
      have hfirst : first = k := by
        have hhead := List.head?_dropWhile_not (· ≠ k) visiting
        rw [hdrop] at hhead
        simpa using hhead
      rw [hdrop] at hchain
      exists k, between
      constructor
      · rw [hfirst]
      · exact hchain.right_of_append

omit [DecidableEq Key] in
theorem visitNames_error {visit : Visits α Key -> α -> Except (Failure Key) (Visits α Key)}
    (hindexed : G.Indexed nodes) (hx : x ∈ nodes) {names : List Key}
    (hnames : forall name, name ∈ names -> name ∈ G.needs x)
    (hvisit : forall s y e, y ∈ nodes -> G.key y ∈ G.needs x -> visit s y = .error e ->
      G.Explains nodes e) {e : Failure Key} (herror : G.visitNames visit x names s = .error e) :
    G.Explains nodes e := by
  induction names generalizing s with
  | nil => cases herror
  | cons name rest ih =>
      have hneeds := hnames name (.head _)
      unfold Graph.visitNames at herror
      cases hfind : G.find name with
      | none =>
          rw [hfind] at herror
          cases herror
          apply Graph.Explains.missing
          · exact ⟨x, hx, rfl, hneeds⟩
          · intro hmem
            rcases List.mem_map.mp hmem with ⟨y, hy, hkey⟩
            rw [(hindexed.find name y).mpr ⟨hy, hkey⟩] at hfind
            cases hfind
      | some y =>
          rcases (hindexed.find name y).mp hfind with ⟨hy, hkey⟩
          rw [hfind] at herror
          dsimp only at herror
          cases hfirst : visit s y with
          | error failure =>
              rw [hfirst] at herror
              cases herror
              exact hvisit s y e hy (hkey ▸ hneeds) hfirst
          | ok s₁ =>
              rw [hfirst] at herror
              exact ih (fun k hk => hnames k (.tail _ hk)) herror

theorem visit_error (hindexed : G.Indexed nodes) {depth : Nat} (hx : x ∈ nodes)
    (hway : Way G nodes visiting (G.key x)) (hdepth : nodes.length < depth + visiting.length)
    {e : Failure Key} (herror : G.visit depth visiting s x = .error e) : G.Explains nodes e := by
  induction depth generalizing visiting s x e with
  | zero =>
      have hle := hway.length_le
      omega
  | succ depth ih =>
      unfold Graph.visit at herror
      split at herror
      · cases herror
      · split at herror
        · rename_i hin
          cases herror
          exact .cycle (hway.isCycle hin)
        · rename_i hnew
          split at herror
          · rename_i e' hnames
            cases herror
            apply visitNames_error hindexed hx (fun name hname => hname) _ hnames
            intro s y e hy hneeds hy'
            apply ih hy (hway.next hx hnew hneeds) _ hy'
            rw [List.length_append, List.length_singleton]
            omega
          · cases herror

theorem order_error (hindexed : G.Indexed nodes) {e : Failure Key}
    (herror : G.order nodes = .error e) : G.Explains nodes e := by
  have heach : forall (xs : List α) (s : Visits α Key), (forall x, x ∈ xs -> x ∈ nodes) ->
      G.visitEach (nodes.length + 1) xs s = .error e -> G.Explains nodes e := by
    intro xs
    induction xs with
    | nil =>
        intro s _ h
        cases h
    | cons x rest ih =>
        intro s hxs h
        unfold Graph.visitEach at h
        split at h
        · rename_i e' hx
          cases h
          exact visit_error hindexed (hxs x (.head _)) (.start _) (Nat.lt_succ_self _) hx
        · exact ih _ (fun y hy => hxs y (.tail _ hy)) h
  unfold Graph.order at herror
  split at herror
  · rename_i e' hs
    cases herror
    exact heach nodes _ (fun x hx => hx) hs
  · cases herror

omit [DecidableEq Key] in
theorem Graph.IsCycle.transGen {path : List Key} (h : G.IsCycle nodes path) :
    exists k, Relation.TransGen (G.DependsOn nodes) k k := by
  rcases h with ⟨k, between, rfl, hchain⟩
  exists k
  cases between with
  | nil => exact .single (List.isChain_pair.mp hchain)
  | cons next rest =>
      rw [List.cons_append, List.cons_append, List.isChain_cons_cons] at hchain
      apply Relation.TransGen.head' hchain.1
      apply List.relationReflTransGen_of_exists_isChain_cons (rest ++ [k]) hchain.2
      simp

theorem acyclic_of_order (hindexed : G.Indexed nodes) {ordered : List α}
    (hok : G.order nodes = .ok ordered) : Forest.Acyclic (G.DependsOn nodes) := by
  rcases order_spec hindexed hok with ⟨hperm, hfirst⟩
  have hnodup : (ordered.map G.key).Nodup := (hperm.map G.key).nodup_iff.mpr hindexed.keys
  apply Forest.acyclic_of_rank fun k => (ordered.map G.key).idxOf k
  intro a b hedge
  rcases hedge with ⟨x, hx, rfl, hb⟩
  rcases List.mem_iff_append.mp (hperm.mem_iff.mpr hx) with ⟨before, after, heq⟩
  have hbefore := hfirst before x after heq b hb
  have hnot : G.key x ∉ before.map G.key := by
    rw [heq, List.map_append, List.nodup_append] at hnodup
    exact fun hmem => hnodup.2.2 _ hmem _ (.head _) rfl
  rw [heq, List.map_append, List.idxOf_append_of_mem hbefore, List.idxOf_append_of_notMem hnot]
  exact Nat.lt_add_right _ (List.idxOf_lt_length_of_mem hbefore)

/-- No order is found exactly when a dependency is missing or there is a cycle. -/
theorem order_error_iff (hindexed : G.Indexed nodes) :
    (exists e, G.order nodes = .error e) ↔
      (exists x, x ∈ nodes ∧ exists name, name ∈ G.needs x ∧ name ∉ nodes.map G.key) ∨
        exists k, Relation.TransGen (G.DependsOn nodes) k k := by
  constructor
  · intro h
    rcases h with ⟨e, he⟩
    cases order_error hindexed he with
    | cycle hcycle => exact .inr hcycle.transGen
    | missing needed absent =>
        rcases needed with ⟨x, hx, _, hneeds⟩
        exact .inl ⟨x, hx, _, hneeds, absent⟩
  · intro h
    cases hresult : G.order nodes with
    | error e => exact ⟨e, rfl⟩
    | ok ordered =>
        have hacyclic := acyclic_of_order hindexed hresult
        cases h with
        | inl hmissing =>
            rcases hmissing with ⟨x, hx, name, hneeds, habsent⟩
            have hall := (order_ok_iff hindexed hacyclic).mp ⟨ordered, hresult⟩
            exact absurd (hall x hx name hneeds) habsent
        | inr hcycle =>
            rcases hcycle with ⟨k, hk⟩
            exact absurd hk (hacyclic k)

end Dependencies
end RagService
