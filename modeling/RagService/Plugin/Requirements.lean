import Mathlib.Data.Finset.Basic
import RagService.Foundation.Text

/-!
# Requirements of plugins

`_requirements_installed`: the check whether the requirements of a plugin and all that they
depend on are installed.  What `packaging` does with a line, a marker, a version and a name is
given.
-/

namespace RagService
namespace Plugin

/-- A parsed requirement; an empty specifier and no marker are `none`. -/
structure Requirement (Marker Specifier : Type) where
  name : Text
  extras : Finset Text
  specifier : Option Specifier
  marker : Option Marker

structure Distribution where
  name : Text
  version : Text
  requires : Option (List Text)

structure Packaging (Marker Specifier : Type) where
  /-- `Requirement(line)`, or the text of the exception -/
  parse : Text -> Except Text (Requirement Marker Specifier)
  /-- `marker.evaluate` with this extra -/
  evaluate : Marker -> Text -> Bool
  /-- `specifier.contains(version, prereleases=True)` -/
  contains : Specifier -> Text -> Bool
  canonicalizeName : Text -> Text

inductive RequirementError where
  | line (line reason : Text)
  | metadata (line reason : Text)
  /-- the recursion gets deeper than its limit -/
  | tooDeep

def RequirementError.message : RequirementError -> Text
  | .line text reason => "依赖 ".toList ++ text ++ " 格式错误: ".toList ++ reason
  | .metadata text reason => "依赖元数据 ".toList ++ text ++ " 格式错误: ".toList ++ reason
  | .tooDeep => []

/-- A canonical name with the extras requested; the set stands for the sorted tuple. -/
abbrev RequirementState := Text × Finset Text

/-- The lines of the file that are requirements. -/
def requirementLines (text : Text) : List Text :=
  ((Text.splitLines text).map Text.strip).filter fun line => line ≠ [] ∧ line.head? ≠ some '#'

section

variable {Marker Specifier : Type} (P : Packaging Marker Specifier)
variable (installed : List Distribution)

def distribution (name : Text) : Option Distribution :=
  installed.find? fun dist => P.canonicalizeName dist.name = P.canonicalizeName name

/-- There is no marker, or it holds for one of the active extras. -/
def markerActive (requirement : Requirement Marker Specifier) (activeExtras : Finset Text) : Bool :=
  requirement.marker.all fun marker => decide (exists extra, extra ∈ activeExtras ∧
    P.evaluate marker extra = true)

def childActiveExtras (requirement : Requirement Marker Specifier) : Finset Text :=
  if requirement.extras = ∅ then {[]} else requirement.extras

def requirementState (requirement : Requirement Marker Specifier) : RequirementState :=
  (P.canonicalizeName requirement.name, requirement.extras)

/-- The loop over the dependencies of a distribution. -/
def dependenciesSatisfied
    (satisfied : List RequirementState -> Requirement Marker Specifier -> Finset Text ->
      Except RequirementError (Bool × List RequirementState))
    (activeExtras : Finset Text) :
    List RequirementState -> List Text -> Except RequirementError (Bool × List RequirementState)
  | visited, [] => .ok (true, visited)
  | visited, dependencyLine :: rest =>
      match P.parse dependencyLine with
      | .error reason => .error (.metadata dependencyLine reason)
      | .ok dependency =>
          match satisfied visited dependency activeExtras with
          | .error e => .error e
          | .ok (false, visited) => .ok (false, visited)
          | .ok (true, visited) => dependenciesSatisfied satisfied activeExtras visited rest

/-- `requirement_satisfied`, as deep as this. -/
def requirementSatisfied : Nat -> List RequirementState -> Requirement Marker Specifier ->
    Finset Text -> Except RequirementError (Bool × List RequirementState)
  | 0, _, _, _ => .error .tooDeep
  | fuel + 1, visited, requirement, activeExtras =>
      if !markerActive P requirement activeExtras then .ok (true, visited)
      else
        match distribution P installed requirement.name with
        | none => .ok (false, visited)
        | some dist =>
            if !requirement.specifier.all fun specifier => P.contains specifier dist.version then
              .ok (false, visited)
            else if requirementState P requirement ∈ visited then .ok (true, visited)
            else
              dependenciesSatisfied P (requirementSatisfied fuel) (childActiveExtras requirement)
                (requirementState P requirement :: visited) (dist.requires.getD [])

/-- `all(requirement_satisfied(requirement) for requirement in requirements)` -/
def allSatisfied (fuel : Nat) : List RequirementState -> List (Requirement Marker Specifier) ->
    Except RequirementError Bool
  | _, [] => .ok true
  | visited, requirement :: rest =>
      match requirementSatisfied P installed fuel visited requirement {[]} with
      | .error e => .error e
      | .ok (false, _) => .ok false
      | .ok (true, visited) => allSatisfied fuel visited rest

def parseRequirements : List Text -> Except RequirementError (List (Requirement Marker Specifier))
  | [] => .ok []
  | line :: rest =>
      match P.parse line with
      | .error reason => .error (.line line reason)
      | .ok requirement =>
          match parseRequirements rest with
          | .error e => .error e
          | .ok requirements => .ok (requirement :: requirements)

def requirementsInstalled (fuel : Nat) (text : Text) : Except RequirementError Bool :=
  match parseRequirements P (requirementLines text) with
  | .error e => .error e
  | .ok requirements => allSatisfied P installed fuel [] requirements

end

end Plugin
end RagService
