import RagService.Snowflake.Generator

/-!
# Snowflake nodes

`SnowflakeNodeManager` and the life of a process around it: the search for a node whose
Redis key is free, the heartbeat that prolongs the key, and its release.  Keys lapse with
time; each Redis command is one step.
-/

namespace RagService

open SnowflakeConfig

structure NodeSettings where
  nodeTtlSeconds : Nat
  positive : 0 < nodeTtlSeconds

/-- The candidates of `acquire_node_id`, in order. -/
def allNodes : List Node :=
  (List.finRange (maxDatacenterId + 1)).flatMap fun (d : Fin (maxDatacenterId + 1)) =>
    (List.finRange (maxWorkerId + 1)).map fun (w : Fin (maxWorkerId + 1)) =>
      { datacenterId := d
        workerId := w
        datacenterId_le := Nat.le_of_lt_succ d.isLt
        workerId_le := Nat.le_of_lt_succ w.isLt }

inductive NodePhase where
  | new
  /-- in `acquire_node_id`, with the candidates that are left -/
  | acquiring (candidates : List Node)
  /-- the key is set -/
  | registered (node : Node)
  /-- initialised, with a heartbeat -/
  | running (node : Node)
  /-- `release` has ended the heartbeat -/
  | stopping (node : Node)
  /-- `release` has deleted the key -/
  | released (node : Node)
  | exited (node : Option Node)
  deriving DecidableEq

/-- The node that a heartbeat command still under way may be about. -/
def NodePhase.heartbeatNode : NodePhase -> Option Node
  | running node | stopping node | released node => some node
  | exited node => node
  | _ => none

structure Member where
  phase : NodePhase
  generator : Snowflake

structure Cluster (Process : Type) where
  now : Nat
  /-- the time at which a key lapses -/
  deadlines : Node -> Option Nat
  members : Process -> Member

namespace Cluster

variable {Process : Type} [DecidableEq Process]

def initial : Cluster Process where
  now := 0
  deadlines := fun _ => none
  members := fun _ => ⟨.new, ⟨none, 0, -1⟩⟩

def Exists (s : Cluster Process) (node : Node) : Prop :=
  exists deadline, deadline ∈ s.deadlines node ∧ s.now < deadline

instance (s : Cluster Process) (node : Node) : Decidable (s.Exists node) :=
  inferInstanceAs (Decidable (exists deadline, deadline ∈ s.deadlines node ∧ s.now < deadline))

def setPhase (s : Cluster Process) (p : Process) (phase : NodePhase) : Cluster Process :=
  { s with members := Function.update s.members p { s.members p with phase := phase } }

def setDeadline (s : Cluster Process) (node : Node) (deadline : Option Nat) : Cluster Process :=
  { s with deadlines := Function.update s.deadlines node deadline }

inductive Action (Process : Type) where
  | tick (seconds : Nat)
  /-- `scan_iter` answers the nodes of the keys it comes across. -/
  | scan (p : Process) (occupied : List Node)
  /-- `_register` for the next candidate -/
  | register (p : Process)
  /-- `start_heartbeat` and the rest of `init` -/
  | start (p : Process)
  /-- an `EXPIRE` of the heartbeat arrives -/
  | heartbeat (p : Process)
  /-- `shutdown` cancels the heartbeat -/
  | stop (p : Process)
  /-- the `DEL` of `release` -/
  | release (p : Process)
  | generate (p : Process) (clock : List Int)
  | exit (p : Process)

def step (settings : NodeSettings) (s : Cluster Process) : Action Process -> Option (Cluster Process)
  | .tick seconds => some { s with now := s.now + seconds }
  | .scan p occupied =>
      match (s.members p).phase with
      | .new =>
          some (s.setPhase p (.acquiring (allNodes.filter fun node => node ∉ occupied)))
      | _ => none
  | .register p =>
      match (s.members p).phase with
      -- no node is left: `init` raises
      | .acquiring [] => some (s.setPhase p .new)
      | .acquiring (node :: rest) =>
          if s.Exists node then some (s.setPhase p (.acquiring rest))
          else
            some ((s.setDeadline node (some (s.now + settings.nodeTtlSeconds))).setPhase p
              (.registered node))
      | _ => none
  | .start p =>
      match (s.members p).phase with
      | .registered node =>
          some { s with
            members := Function.update s.members p ⟨.running node, Snowflake.started node⟩ }
      | _ => none
  | .heartbeat p =>
      match (s.members p).phase.heartbeatNode with
      | some node =>
          -- `EXPIRE` does nothing to a key that is not there
          if s.Exists node then
            some (s.setDeadline node (some (s.now + settings.nodeTtlSeconds)))
          else some s
      | none => none
  | .stop p =>
      match (s.members p).phase with
      | .running node => some (s.setPhase p (.stopping node))
      | _ => none
  | .release p =>
      match (s.members p).phase with
      | .stopping node | .released node =>
          some ((s.setDeadline node none).setPhase p (.released node))
      | _ => none
  | .generate p clock =>
      match (s.members p).phase with
      | .exited _ => none
      | _ =>
          ((s.members p).generator.generate clock).map fun (_, generator, _) =>
            { s with
              members := Function.update s.members p { s.members p with generator := generator } }
  | .exit p =>
      match (s.members p).phase with
      | .exited _ => none
      | phase => some (s.setPhase p (.exited phase.heartbeatNode))

def CanGenerate (s : Cluster Process) (p : Process) (node : Node) : Prop :=
  (s.members p).generator.node = some node ∧ forall last, (s.members p).phase ≠ .exited last

end Cluster
end RagService
