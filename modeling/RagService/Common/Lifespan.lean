import RagService.Foundation.Dicts
import RagService.Foundation.ExitStacks
import RagService.Foundation.Text

/-!
# Lifespans

The hooks that are entered when the application starts and left when it stops, in the order
of their stages and, in a stage, of their registration.  Hooks are told apart by identity.
-/

namespace RagService

open ExitStack

inductive LifespanStage where
  | core
  | plugin
  | tail

/-- `_lifespans`, a list for each stage. -/
structure LifespanManager (ι : Type) where
  core : List ι
  plugin : List ι
  tail : List ι

namespace LifespanManager

variable {ι Exn Value : Type}

def hooks (m : LifespanManager ι) : List ι :=
  m.core ++ m.plugin ++ m.tail

def empty : LifespanManager ι :=
  ⟨[], [], []⟩

def add (m : LifespanManager ι) (f : ι) : LifespanStage -> LifespanManager ι
  | .core => { m with core := m.core ++ [f] }
  | .plugin => { m with plugin := m.plugin ++ [f] }
  | .tail => { m with tail := m.tail ++ [f] }

def register [DecidableEq ι] (m : LifespanManager ι) (f : ι) (stage : LifespanStage) :
    LifespanManager ι :=
  if f ∈ m.hooks then m else m.add f stage

/-- `state`: what is yielded is merged if it is a dictionary. -/
def mergeState : Dict Text Value -> List (Option (Dict Text Value)) -> Dict Text Value
  | state, [] => state
  | state, none :: rest => mergeState state rest
  | state, some result :: rest =>
      mergeState (result.foldl (fun state (key, value) => state.set key value) state) rest

/-- A life of the application: what its hooks do, what is set on `app.state`, and how it ends. -/
structure Life (ι Exn Value : Type) where
  events : List (Event ι)
  state : Option (Dict Text Value)
  result : Except Exn Unit

/-- What is raised in the end for an exception, by what `__aexit__` says. -/
def ending (didNotYield : Option Exn) (received : Option Exn) : Except Exn Bool -> Except Exn Unit
  | .error e => .error e
  | .ok true =>
      match didNotYield with
      | some e => .error e
      | none => .ok ()
  | .ok false =>
      match received with
      | some e => .error e
      | none => .ok ()

/--
`combined_lifespan` around a body that may raise.  A start that fails does not yield, and so
raises an error even if a hook suppresses the first one.
-/
def live (m : LifespanManager ι) (contexts : ι -> Context Exn (Option (Dict Text Value)))
    (didNotYield : Exn) (body : Option Exn) : Life ι Exn Value :=
  let entering := enterAll contexts m.hooks []
  match entering.failure with
  | some e =>
      let out := aexit contexts entering.stack (some e)
      ⟨entering.events ++ out.1, none, ending (some didNotYield) (some e) out.2⟩
  | none =>
      let out := aexit contexts entering.stack body
      ⟨entering.events ++ .served :: out.1, some (mergeState [] entering.values),
        ending none body out.2⟩

/-!
# Lives
-/

variable {m : LifespanManager ι}

theorem brackets_live (m : LifespanManager ι)
    (contexts : ι -> Context Exn (Option (Dict Text Value))) (didNotYield : Exn)
    (body : Option Exn) : Brackets m.hooks (m.live contexts didNotYield body).events := by
  unfold live
  dsimp only
  split
  · rename_i e he
    exact brackets_refused he
  · rename_i hnone
    exact brackets_served body hnone

/-!
# Registration

The hooks of the core are registered first.  A new hook of a plugin comes after them and after
those of earlier plugins of its stage.
-/

variable {f g : ι} {stage : LifespanStage}

theorem perm_hooks_add (m : LifespanManager ι) (f : ι) (stage : LifespanStage) :
    (m.add f stage).hooks.Perm (f :: m.hooks) := by
  unfold hooks add
  cases stage with
  | core =>
      dsimp only
      rw [List.append_assoc, List.append_assoc, List.append_assoc]
      exact List.perm_middle
  | plugin =>
      dsimp only
      rw [← List.append_assoc, List.append_assoc]
      exact List.perm_middle
  | tail =>
      dsimp only
      rw [← List.append_assoc]
      exact List.perm_append_singleton f _

variable [DecidableEq ι]

theorem mem_hooks_register : g ∈ (m.register f stage).hooks ↔ g ∈ m.hooks ∨ g = f := by
  unfold register
  split
  · rename_i hin
    constructor
    · exact .inl
    · intro h
      cases h with
      | inl hg => exact hg
      | inr hg =>
          rw [hg]
          exact hin
  · rw [(perm_hooks_add m f stage).mem_iff, List.mem_cons, or_comm]

theorem nodup_hooks_register (h : m.hooks.Nodup) : (m.register f stage).hooks.Nodup := by
  unfold register
  split
  · exact h
  · rename_i hnot
    exact (perm_hooks_add m f stage).nodup_iff.mpr (List.nodup_cons.mpr ⟨hnot, h⟩)

theorem sublist_hooks_register (m : LifespanManager ι) (f : ι) (stage : LifespanStage) :
    m.hooks.Sublist (m.register f stage).hooks := by
  unfold register
  split
  · exact .refl _
  · unfold hooks add
    cases stage with
    | core => exact ((List.sublist_append_left _ _).append_right _).append_right _
    | plugin => exact ((List.sublist_append_left _ _).append_left _).append_right _
    | tail => exact (List.sublist_append_left _ _).append_left _

theorem tail_register_plugin : (m.register f .plugin).tail = m.tail := by
  unfold register
  split
  · rfl
  · rfl

theorem sublist_register_plugin (htail : m.tail = []) (hf : f ∉ m.hooks) (hg : g ∈ m.hooks) :
    [g, f].Sublist (m.register f .plugin).hooks := by
  have hhooks : (m.register f .plugin).hooks = m.hooks ++ [f] := by
    unfold register
    rw [if_neg hf]
    simp [hooks, add, htail]
  rw [hhooks]
  exact (List.singleton_sublist.mpr hg).append (.refl [f])

end LifespanManager
end RagService
