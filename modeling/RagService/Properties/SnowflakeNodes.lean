import Mathlib.Data.Fintype.Basic
import RagService.Foundation.Transitions
import RagService.Snowflake.Nodes

/-!
# Snowflake nodes are not shared

A process goes on generating ids when the key of its node has lapsed and after its release, and
`release` deletes the key whoever has set it.  Processes share no node as long as none of this
meets another process.  A call of `generate` does not change the node.
-/

namespace RagService

open Transitions

theorem Snowflake.nextSequence_node {s s' : Snowflake} {timestamp : Int} {clock rest : List Int}
    (h : s.nextSequence timestamp clock = some (s', rest)) : s'.node = s.node := by
  unfold Snowflake.nextSequence at h
  split at h
  · dsimp only at h
    split at h
    · rcases Option.map_eq_some_iff.mp h with ⟨x, -, heq⟩
      cases heq
      rfl
    · cases h
      rfl
  · cases h
    rfl

theorem Snowflake.issue_node {s s' : Snowflake} {node : Node} {timestamp : Int}
    {clock rest : List Int} {r : Except Exception Int}
    (h : s.issue node timestamp clock = some (r, s', rest)) : s'.node = s.node := by
  rcases Option.map_eq_some_iff.mp h with ⟨⟨s₁, left⟩, hnext, heq⟩
  cases heq
  exact Snowflake.nextSequence_node hnext

theorem Snowflake.generate_node {s s' : Snowflake} {clock rest : List Int}
    {r : Except Exception Int} (h : s.generate clock = some (r, s', rest)) :
    s'.node = s.node := by
  unfold Snowflake.generate at h
  split at h
  · cases h
    rfl
  · cases h
  · dsimp only at h
    split at h
    · split at h
      · rcases Option.bind_eq_some_iff.mp h with ⟨x, -, hissue⟩
        exact Snowflake.issue_node hissue
      · cases h
        rfl
    · exact Snowflake.issue_node h

namespace NodePhase

def heldNode : NodePhase -> Option Node
  | registered node | running node | stopping node => some node
  | _ => none

def releasedNode : NodePhase -> Option Node
  | released node => some node
  | _ => none

def initialisedNode : NodePhase -> Option Node
  | running node | stopping node | released node => some node
  | _ => none

end NodePhase

namespace Cluster

variable {Process : Type} {settings : NodeSettings} {s s' : Cluster Process}

/-!
# Conditions
-/

def Holds (s : Cluster Process) (p : Process) (node : Node) : Prop :=
  node ∈ (s.members p).phase.heldNode

def HasReleased (s : Cluster Process) (p : Process) (node : Node) : Prop :=
  node ∈ (s.members p).phase.releasedNode

/-- No key lapses while the process that has set it has neither deleted it nor exited. -/
def KeepsLeases (s : Cluster Process) (seconds : Nat) : Prop :=
  forall p node, s.Holds p node ->
    exists deadline, deadline ∈ s.deadlines node ∧ s.now + seconds < deadline

/-- A process is initialised when all that have released its node have exited. -/
def StartsAlone (s : Cluster Process) (p : Process) : Prop :=
  forall node, s.Holds p node -> forall q, ¬ s.HasReleased q node

/-- A process releases its node again only while nobody holds it. -/
def ReleasesOnce (s : Cluster Process) (p : Process) : Prop :=
  forall node, s.HasReleased p node -> forall q, ¬ s.Holds q node

/--
The steps of processes that keep their leases, exit after their release before the node
has another user, and do not release again what another process holds.
-/
def LeaseKept (s : Cluster Process) : Action Process -> Prop
  | .tick seconds => s.KeepsLeases seconds
  | .start p => s.StartsAlone p
  | .release p => s.ReleasesOnce p
  | _ => True

section

variable [Fintype Process]

instance (s : Cluster Process) (seconds : Nat) : Decidable (s.KeepsLeases seconds) :=
  inferInstanceAs (Decidable (forall p node, node ∈ (s.members p).phase.heldNode ->
    exists deadline, deadline ∈ s.deadlines node ∧ s.now + seconds < deadline))

instance (s : Cluster Process) (p : Process) : Decidable (s.StartsAlone p) :=
  inferInstanceAs (Decidable (forall node, node ∈ (s.members p).phase.heldNode ->
    forall q, ¬ node ∈ (s.members q).phase.releasedNode))

instance (s : Cluster Process) (p : Process) : Decidable (s.ReleasesOnce p) :=
  inferInstanceAs (Decidable (forall node, node ∈ (s.members p).phase.releasedNode ->
    forall q, ¬ node ∈ (s.members q).phase.heldNode))

instance (s : Cluster Process) : (a : Action Process) -> Decidable (s.LeaseKept a)
  | .tick seconds => inferInstanceAs (Decidable (s.KeepsLeases seconds))
  | .start p => inferInstanceAs (Decidable (s.StartsAlone p))
  | .release p => inferInstanceAs (Decidable (s.ReleasesOnce p))
  | .scan _ _ | .register _ | .heartbeat _ | .stop _ | .generate _ _ | .exit _ => .isTrue trivial

end

/-!
# The invariant

An initialised process holds its node or has released it, and a release deletes the key of no
node that another process has.
-/

structure NodesKept (s : Cluster Process) : Prop where
  lease : s.KeepsLeases 0
  single : forall p q node, s.Holds p node -> s.Holds q node -> p = q
  generator : forall p, (forall last, (s.members p).phase ≠ .exited last) ->
    (s.members p).generator.node = (s.members p).phase.initialisedNode
  released : forall p q node, s.HasReleased p node ->
    (s.members q).phase.initialisedNode = some node -> p = q

theorem holds_of_initialised {p : Process} {node : Node}
    (h : (s.members p).phase.initialisedNode = some node) :
    s.Holds p node ∨ s.HasReleased p node := by
  unfold Holds HasReleased
  cases hphase : (s.members p).phase with
  | running n | stopping n =>
      rw [hphase] at h
      exact .inl h
  | released n =>
      rw [hphase] at h
      exact .inr h
  | new | acquiring _ | registered _ | exited _ =>
      rw [hphase] at h
      cases h

theorem NodesKept.exclusive (h : s.NodesKept) {p q : Process} {node : Node}
    (hp : s.CanGenerate p node) (hq : s.CanGenerate q node) : p = q := by
  have hpnode := (h.generator p hp.2).symm.trans hp.1
  have hqnode := (h.generator q hq.2).symm.trans hq.1
  cases holds_of_initialised hpnode with
  | inr hreleased => exact h.released p q node hreleased hqnode
  | inl hholds =>
      cases holds_of_initialised hqnode with
      | inr hreleased => exact (h.released q p node hreleased hpnode).symm
      | inl hholds' => exact h.single p q node hholds hholds'

def Frees (s : Cluster Process) (p : Process) (node : Node) : Prop :=
  (s.members p).phase = .stopping node ∨ (s.members p).phase = .released node

theorem Frees.initialisedNode {p : Process} {node : Node} (h : s.Frees p node) :
    (s.members p).phase.initialisedNode = some node := by
  rcases h with hp | hp <;> rw [hp] <;> rfl

/-- A release deletes the key of no node that another process has. -/
theorem NodesKept.release (h : s.NodesKept) {p q : Process} {node : Node}
    (hcond : s.LeaseKept (.release p)) (hp : s.Frees p node)
    (hq : s.Holds q node ∨ s.CanGenerate q node) : p = q := by
  -- another process that can generate holds the node, or has released it
  have hcases : s.Holds q node ∨ s.HasReleased q node := by
    cases hq with
    | inl hholds => exact .inl hholds
    | inr hgenerates =>
        exact holds_of_initialised ((h.generator q hgenerates.2).symm.trans hgenerates.1)
  cases hcases with
  | inr hreleased => exact (h.released q p node hreleased hp.initialisedNode).symm
  | inl hholds =>
      cases holds_of_initialised hp.initialisedNode with
      | inl hholds' => exact h.single p q node hholds' hholds
      | inr hreleased => exact absurd hholds (hcond node hreleased q)

theorem initial_nodesKept : (initial : Cluster Process).NodesKept := by
  constructor
  · intro p node hholds
    exact nomatch hholds
  · intro p q node hholds
    exact nomatch hholds
  · intro p hp
    rfl
  · intro p q node hreleased
    exact nomatch hreleased

theorem NodesKept.heartbeat (h : s.NodesKept) (node : Node) :
    (s.setDeadline node (some (s.now + settings.nodeTtlSeconds))).NodesKept := by
  constructor
  · intro q m hq
    by_cases hm : m = node
    · subst hm
      refine ⟨s.now + settings.nodeTtlSeconds, Function.update_self _ _ _, ?_⟩
      exact Nat.add_lt_add_left settings.positive s.now
    · rcases h.lease q m hq with ⟨deadline, hdeadline, hlt⟩
      exact ⟨deadline, (Function.update_of_ne hm _ _).trans hdeadline, hlt⟩
  · exact h.single
  · exact h.generator
  · exact h.released

/-!
# One step

A process moves on without a key, or is initialised after all that have released its node have
exited.
-/

variable [DecidableEq Process]

@[simp] theorem setPhase_phase_self (s : Cluster Process) (p : Process) (phase : NodePhase) :
    ((s.setPhase p phase).members p).phase = phase := by
  simp [setPhase]

theorem setPhase_members_of_ne (s : Cluster Process) {p q : Process} (phase : NodePhase)
    (h : q ≠ p) : (s.setPhase p phase).members q = s.members q := by
  simp [setPhase, Function.update_of_ne h]

theorem NodesKept.setPhase (h : s.NodesKept) {p : Process} {phase : NodePhase}
    (hholds : forall node, node ∈ phase.heldNode -> s.Holds p node)
    (hnode : phase.initialisedNode = (s.members p).phase.initialisedNode ∨
      exists last, phase = .exited last)
    (hphase : forall last, (s.members p).phase ≠ .exited last)
    (hreleased : phase.releasedNode = none) :
    (s.setPhase p phase).NodesKept := by
  have hHolds : forall q node, (s.setPhase p phase).Holds q node -> s.Holds q node := by
    intro q node hq
    by_cases hqp : q = p
    · subst hqp
      rw [Cluster.Holds, setPhase_phase_self] at hq
      exact hholds node hq
    · rwa [Cluster.Holds, setPhase_members_of_ne s phase hqp] at hq
  have hReleased : forall q node, (s.setPhase p phase).HasReleased q node ->
      s.HasReleased q node := by
    intro q node hq
    by_cases hqp : q = p
    · subst hqp
      rw [HasReleased, setPhase_phase_self, hreleased] at hq
      cases hq
    · rwa [HasReleased, setPhase_members_of_ne s phase hqp] at hq
  have hInitialised : forall q node,
      ((s.setPhase p phase).members q).phase.initialisedNode = some node ->
        (s.members q).phase.initialisedNode = some node := by
    intro q node hq
    by_cases hqp : q = p
    · subst hqp
      rw [setPhase_phase_self] at hq
      cases hnode with
      | inl hsame => exact hsame.symm.trans hq
      | inr hexited =>
          rcases hexited with ⟨last, rfl⟩
          cases hq
    · rwa [setPhase_members_of_ne s phase hqp] at hq
  constructor
  · intro q node hq
    exact h.lease q node (hHolds q node hq)
  · intro q r node hq hr
    exact h.single q r node (hHolds q node hq) (hHolds r node hr)
  · intro q hq
    by_cases hqp : q = p
    · subst hqp
      rw [setPhase_phase_self] at hq ⊢
      cases hnode with
      | inl hsame =>
          rw [hsame, ← h.generator q hphase]
          simp [Cluster.setPhase]
      | inr hexited =>
          rcases hexited with ⟨last, rfl⟩
          exact absurd rfl (hq last)
    · rw [setPhase_members_of_ne s phase hqp] at hq ⊢
      exact h.generator q hq
  · intro q r node hq hr
    exact h.released q r node (hReleased q node hq) (hInitialised r node hr)

theorem NodesKept.register (h : s.NodesKept) {p : Process} {node : Node} {rest : List Node}
    (hphase : (s.members p).phase = .acquiring (node :: rest)) (hfree : ¬ s.Exists node) :
    ((s.setDeadline node (some (s.now + settings.nodeTtlSeconds))).setPhase p
      (.registered node)).NodesKept := by
  have hnone : forall q, ¬ s.Holds q node := by
    intro q hq
    rcases h.lease q node hq with ⟨deadline, hdeadline, hlt⟩
    exact hfree ⟨deadline, hdeadline, hlt⟩
  let s' := (s.setDeadline node (some (s.now + settings.nodeTtlSeconds))).setPhase p
    (.registered node)
  have hself : (s'.members p).phase = .registered node := setPhase_phase_self _ _ _
  have hother : forall q, q ≠ p -> s'.members q = s.members q := fun q hq =>
    setPhase_members_of_ne _ _ hq
  have hHolds : forall q m, s'.Holds q m -> (q = p ∧ m = node) ∨ (q ≠ p ∧ s.Holds q m) := by
    intro q m hq
    by_cases hqp : q = p
    · subst hqp
      rw [Holds, hself] at hq
      exact .inl ⟨rfl, (Option.some.inj hq).symm⟩
    · rw [Holds, hother q hqp] at hq
      exact .inr ⟨hqp, hq⟩
  constructor
  · intro q m hq
    rcases hHolds q m hq with ⟨-, rfl⟩ | ⟨-, hq⟩
    · refine ⟨s.now + settings.nodeTtlSeconds, Function.update_self _ _ _, ?_⟩
      exact Nat.add_lt_add_left settings.positive s.now
    · have hm : m ≠ node := fun heq => hnone q (heq ▸ hq)
      rcases h.lease q m hq with ⟨deadline, hdeadline, hlt⟩
      exact ⟨deadline, (Function.update_of_ne hm _ _).trans hdeadline, hlt⟩
  · intro q r m hq hr
    rcases hHolds q m hq with ⟨rfl, rfl⟩ | ⟨-, hq'⟩ <;>
      rcases hHolds r m hr with ⟨rfl, hm⟩ | ⟨-, hr'⟩
    · rfl
    · exact absurd hr' (hnone r)
    · exact absurd (hm ▸ hq') (hnone q)
    · exact h.single q r m hq' hr'
  · intro q hq
    by_cases hqp : q = p
    · subst hqp
      have hbefore := h.generator q (by rw [hphase]; exact fun last => NodePhase.noConfusion)
      rw [hphase] at hbefore
      change (s'.members q).generator.node = (s'.members q).phase.initialisedNode
      rw [hself]
      simp only [s', Cluster.setPhase, setDeadline, Function.update_self]
      exact hbefore
    · change (s'.members q).generator.node = (s'.members q).phase.initialisedNode
      rw [hother q hqp]
      apply h.generator q
      intro last hlast
      exact hq last ((congrArg Member.phase (hother q hqp)).trans hlast)
  · intro q r m hq hr
    change s'.HasReleased q m at hq
    change (s'.members r).phase.initialisedNode = some m at hr
    by_cases hqp : q = p
    · subst hqp
      rw [HasReleased, hself] at hq
      cases hq
    by_cases hrp : r = p
    · subst hrp
      rw [hself] at hr
      cases hr
    rw [HasReleased, hother q hqp] at hq
    rw [hother r hrp] at hr
    exact h.released q r m hq hr

theorem NodesKept.start (h : s.NodesKept) {p : Process} {node : Node}
    (hphase : (s.members p).phase = .registered node) (hgone : s.StartsAlone p) :
    NodesKept { s with
      members := Function.update s.members p ⟨.running node, Snowflake.started node⟩ } := by
  let s' : Cluster Process := { s with
    members := Function.update s.members p ⟨.running node, Snowflake.started node⟩ }
  have hself : s'.members p = ⟨.running node, Snowflake.started node⟩ :=
    Function.update_self _ _ _
  have hother : forall q, q ≠ p -> s'.members q = s.members q := fun q hq =>
    Function.update_of_ne hq _ _
  have hHolds : forall q m, s'.Holds q m -> s.Holds q m := by
    intro q m hq
    by_cases hqp : q = p
    · subst hqp
      rw [Holds, hself] at hq
      rw [Holds, hphase]
      exact hq
    · rwa [Holds, hother q hqp] at hq
  constructor
  · intro q m hq
    exact h.lease q m (hHolds q m hq)
  · intro q r m hq hr
    exact h.single q r m (hHolds q m hq) (hHolds r m hr)
  · intro q hq
    change (s'.members q).generator.node = (s'.members q).phase.initialisedNode
    by_cases hqp : q = p
    · subst hqp
      rw [hself]
      rfl
    · rw [hother q hqp]
      apply h.generator q
      intro last hlast
      exact hq last ((congrArg Member.phase (hother q hqp)).trans hlast)
  · intro q r m hq hr
    change s'.HasReleased q m at hq
    change (s'.members r).phase.initialisedNode = some m at hr
    by_cases hqp : q = p
    · subst hqp
      rw [HasReleased, hself] at hq
      cases hq
    rw [HasReleased, hother q hqp] at hq
    by_cases hrp : r = p
    · subst hrp
      rw [hself] at hr
      cases hr
      exact absurd hq (hgone node (congrArg NodePhase.heldNode hphase) q)
    · rw [hother r hrp] at hr
      exact h.released q r m hq hr

theorem NodesKept.released_step (h : s.NodesKept) {p : Process} {node : Node}
    (hcond : s.LeaseKept (.release p))
    (hp : s.Frees p node) :
    ((s.setDeadline node none).setPhase p (.released node)).NodesKept := by
  have halone : forall q, s.Holds q node ∨ s.CanGenerate q node -> p = q :=
    fun q => h.release hcond hp
  have hinitialised := hp.initialisedNode
  have hup : forall last, (s.members p).phase ≠ .exited last := by
    intro last hlast
    rw [hlast] at hinitialised
    cases hinitialised
  let s' := (s.setDeadline node none).setPhase p (.released node)
  have hself : (s'.members p).phase = .released node := setPhase_phase_self _ _ _
  have hother : forall q, q ≠ p -> s'.members q = s.members q := fun q hq =>
    setPhase_members_of_ne _ _ hq
  have hHolds : forall q m, s'.Holds q m -> q ≠ p ∧ s.Holds q m := by
    intro q m hq
    by_cases hqp : q = p
    · subst hqp
      rw [Holds, hself] at hq
      cases hq
    · rw [Holds, hother q hqp] at hq
      exact ⟨hqp, hq⟩
  constructor
  · intro q m hq
    rcases hHolds q m hq with ⟨hqp, hbefore⟩
    have hm : m ≠ node := fun heq => hqp (halone q (.inl (heq ▸ hbefore))).symm
    rcases h.lease q m hbefore with ⟨deadline, hdeadline, hlt⟩
    exact ⟨deadline, (Function.update_of_ne hm _ _).trans hdeadline, hlt⟩
  · intro q r m hq hr
    exact h.single q r m (hHolds q m hq).2 (hHolds r m hr).2
  · intro q hq
    change (s'.members q).generator.node = (s'.members q).phase.initialisedNode
    by_cases hqp : q = p
    · subst hqp
      rw [hself]
      simp only [s', Cluster.setPhase, setDeadline, Function.update_self]
      exact (h.generator q hup).trans hinitialised
    · rw [hother q hqp]
      apply h.generator q
      intro last hlast
      exact hq last ((congrArg Member.phase (hother q hqp)).trans hlast)
  · intro q r m hq hr
    change s'.HasReleased q m at hq
    change (s'.members r).phase.initialisedNode = some m at hr
    -- a process in one of these phases had the node before
    have hinit : forall u, (s'.members u).phase.initialisedNode = some m ->
        (s.members u).phase.initialisedNode = some m := by
      intro u hu
      by_cases hup : u = p
      · subst hup
        rw [hself] at hu
        cases hu
        exact hinitialised
      · rwa [hother u hup] at hu
    by_cases hqp : q = p
    · subst hqp
      rw [HasReleased, hself] at hq
      cases hq
      have hr' := hinit r hr
      cases holds_of_initialised hr' with
      | inl hholds => exact halone r (.inl hholds)
      | inr hreleased => exact (h.released r q node hreleased hinitialised).symm
    · rw [HasReleased, hother q hqp] at hq
      exact h.released q r m hq (hinit r hr)

theorem NodesKept.generate (h : s.NodesKept) {p : Process} {generator : Snowflake}
    (hnode : generator.node = (s.members p).generator.node) :
    NodesKept { s with
      members := Function.update s.members p { s.members p with generator := generator } } := by
  let s' : Cluster Process := { s with
    members := Function.update s.members p { s.members p with generator := generator } }
  have hphase : forall q, (s'.members q).phase = (s.members q).phase := by
    intro q
    by_cases hqp : q = p
    · subst hqp
      simp [s']
    · simp [s', Function.update_of_ne hqp]
  have hHolds : forall q m, s'.Holds q m -> s.Holds q m := by
    intro q m hq
    rwa [Holds, hphase q] at hq
  constructor
  · intro q m hq
    exact h.lease q m (hHolds q m hq)
  · intro q r m hq hr
    exact h.single q r m (hHolds q m hq) (hHolds r m hr)
  · intro q hq
    change (s'.members q).generator.node = (s'.members q).phase.initialisedNode
    rw [hphase q, ← h.generator q fun last hlast => hq last ((hphase q).trans hlast)]
    by_cases hqp : q = p
    · subst hqp
      simpa [s'] using hnode
    · simp [s', Function.update_of_ne hqp]
  · intro q r m hq hr
    change s'.HasReleased q m at hq
    change (s'.members r).phase.initialisedNode = some m at hr
    rw [HasReleased, hphase q] at hq
    rw [hphase r] at hr
    exact h.released q r m hq hr

theorem NodesKept.step {a : Action Process} (h : s.NodesKept) (hcond : s.LeaseKept a)
    (hstep : s.step settings a = some s') : s'.NodesKept := by
  cases a with
  | tick seconds =>
      cases hstep
      exact ⟨hcond, h.single, h.generator, h.released⟩
  | scan p occupied =>
      simp only [Cluster.step] at hstep
      split at hstep
      · rename_i hphase
        cases hstep
        apply h.setPhase
        · exact fun node hholds => nomatch hholds
        · exact .inl (by rw [hphase]; rfl)
        · exact fun last hlast => NodePhase.noConfusion (hphase.symm.trans hlast)
        · rfl
      · cases hstep
  | register p =>
      simp only [Cluster.step] at hstep
      split at hstep
      · rename_i hphase
        cases hstep
        apply h.setPhase
        · exact fun node hholds => nomatch hholds
        · exact .inl (by rw [hphase]; rfl)
        · exact fun last hlast => NodePhase.noConfusion (hphase.symm.trans hlast)
        · rfl
      · rename_i node rest hphase
        split at hstep
        · cases hstep
          apply h.setPhase
          · exact fun node hholds => nomatch hholds
          · exact .inl (by rw [hphase]; rfl)
          · exact fun last hlast => NodePhase.noConfusion (hphase.symm.trans hlast)
          · rfl
        · rename_i hfree
          cases hstep
          exact h.register hphase hfree
      · cases hstep
  | start p =>
      simp only [Cluster.step] at hstep
      split at hstep
      · rename_i node hphase
        cases hstep
        exact h.start hphase hcond
      · cases hstep
  | heartbeat p =>
      simp only [Cluster.step] at hstep
      split at hstep
      · rename_i node hnode
        split at hstep
        · cases hstep
          exact h.heartbeat node
        · cases hstep
          exact h
      · cases hstep
  | stop p =>
      simp only [Cluster.step] at hstep
      split at hstep
      · rename_i node hphase
        cases hstep
        apply h.setPhase
        · intro m hm
          rw [Holds, hphase]
          exact hm
        · exact .inl (by rw [hphase]; rfl)
        · exact fun last hlast => NodePhase.noConfusion (hphase.symm.trans hlast)
        · rfl
      · cases hstep
  | release p =>
      simp only [Cluster.step] at hstep
      split at hstep
      · rename_i node hphase
        cases hstep
        exact h.released_step hcond (.inl hphase)
      · rename_i node hphase
        cases hstep
        exact h.released_step hcond (.inr hphase)
      · cases hstep
  | generate p clock =>
      simp only [Cluster.step] at hstep
      split at hstep
      · cases hstep
      · rcases Option.map_eq_some_iff.mp hstep with ⟨⟨r, generator, rest⟩, hgenerate, heq⟩
        cases heq
        exact h.generate (Snowflake.generate_node hgenerate)
  | exit p =>
      simp only [Cluster.step] at hstep
      split at hstep
      · cases hstep
      · rename_i hphase
        cases hstep
        apply h.setPhase
        · exact fun node hholds => nomatch hholds
        · exact .inr ⟨_, rfl⟩
        · exact hphase
        · rfl

/-!
# Whole runs
-/

theorem nodes_never_shared (settings : NodeSettings) {last : Cluster Process}
    (hrun : Reaches (step settings) LeaseKept initial last) :
    (forall p q node, last.CanGenerate p node -> last.CanGenerate q node -> p = q) ∧
      forall p q node, last.LeaseKept (.release p) ->
        last.Frees p node -> (last.Holds q node ∨ last.CanGenerate q node) -> p = q := by
  have hkept : last.NodesKept :=
    hrun.invariant NodesKept initial_nodesKept fun h hcond hstep => h.step hcond hstep
  constructor
  · intro p q node hp hq
    exact hkept.exclusive hp hq
  · intro p q node hcond hp hq
    exact hkept.release hcond hp hq

end Cluster

/-!
# Sample runs

Processes find nodes occupied and take the next ones; the first of them stops, or its key
lapses.
-/

namespace Sample

open Cluster

def nodeSettings : NodeSettings :=
  ⟨60, by decide⟩

def firstNode : Node :=
  ⟨0, 0, by decide, by decide⟩

def acquireNode {n : Nat} (p : Fin n) (occupied : List Node) : List (Action (Fin n)) :=
  [.scan p occupied, .register p, .start p]

end Sample

open Cluster Sample in
/-- Two processes with nodes of their own, and a third after the first has stopped. -/
theorem nodes_never_shared_three : exists last : Cluster (Fin 3),
    (last.CanGenerate 1 ⟨0, 1, by decide, by decide⟩ ∧ last.CanGenerate 2 firstNode) ∧
      forall p q node, last.CanGenerate p node -> last.CanGenerate q node -> p = q := by
  rcases exists_reaches (step nodeSettings) LeaseKept (initial : Cluster (Fin 3))
    (acquireNode 0 [] ++ acquireNode 1 [firstNode] ++ [.tick 30, .heartbeat 1, .stop 0, .release 0, .exit 0] ++
      acquireNode 2 [⟨0, 1, by decide, by decide⟩])
    (fun last => (last.members 1).generator.node = some ⟨0, 1, by decide, by decide⟩ ∧
      (last.members 1).phase = .running ⟨0, 1, by decide, by decide⟩ ∧
      (last.members 2).generator.node = some firstNode ∧
      (last.members 2).phase = .running firstNode)
    (by decide +kernel) with ⟨last, hrun, hnode, hphase, hnode', hphase'⟩
  refine ⟨last, ⟨⟨hnode, ?_⟩, hnode', ?_⟩, (nodes_never_shared nodeSettings hrun).1⟩
  · intro node
    rw [hphase]
    exact NodePhase.noConfusion
  · intro node
    rw [hphase']
    exact NodePhase.noConfusion

open Cluster Sample in
/--
The key of the first process lapses and the second takes the node: both can generate ids
for it.  The first process then releases the node of the second.
-/
theorem nodes_never_shared_fails : exists last : Cluster (Fin 2),
    Reaches (step nodeSettings) (fun _ _ => True) initial last ∧
      (last.CanGenerate 0 firstNode ∧ last.CanGenerate 1 firstNode) ∧
      exists next, last.step nodeSettings (.release 0) = some next ∧
        last.Exists firstNode ∧ ¬ next.Exists firstNode ∧ last.Holds 1 firstNode := by
  rcases exists_reaches (step nodeSettings) (fun _ _ => True) (initial : Cluster (Fin 2))
    (acquireNode 0 [] ++ [.tick 60] ++ acquireNode 1 [] ++ [.stop 0])
    (fun last => ((last.members 0).generator.node = some firstNode ∧
        (last.members 0).phase = .stopping firstNode ∧
        (last.members 1).generator.node = some firstNode ∧
        (last.members 1).phase = .running firstNode) ∧ last.Exists firstNode)
    (by decide +kernel) with ⟨last, hrun, ⟨hnode, hphase, hnode', hphase'⟩, hexists⟩
  refine ⟨last, hrun, ⟨⟨hnode, ?_⟩, hnode', ?_⟩,
    (last.setDeadline firstNode none).setPhase 0 (.released firstNode), ?_, hexists, ?_, ?_⟩
  · intro node
    rw [hphase]
    exact NodePhase.noConfusion
  · intro node
    rw [hphase']
    exact NodePhase.noConfusion
  · simp only [step, hphase]
  · intro h
    rcases h with ⟨deadline, hdeadline, -⟩
    simp [Cluster.setPhase, setDeadline] at hdeadline
  · rw [Holds, hphase']
    rfl

end RagService
