import RagService.Foundation.Closures
import RagService.Plugin.Requirements

/-!
# The requirement check is exact

The check marks a name with its extras before it has looked at the dependencies, and keeps
the marks for all requirements of the file.  It says that everything is installed exactly when
every requirement that can be reached from the file is.
-/

namespace RagService
namespace Plugin

section

variable {Marker Specifier : Type} (P : Packaging Marker Specifier)
variable (installed : List Distribution)

def metadataLines (installed : List Distribution) : List Text :=
  installed.flatMap fun dist => dist.requires.getD []

def WellFormed (lines : List Text) : Prop :=
  forall line, line ∈ lines -> exists requirement, P.parse line = .ok requirement

/-- A requirement names an installed distribution whose version satisfies its specifier. -/
def Satisfied (requirement : Requirement Marker Specifier) : Prop :=
  exists dist, distribution P installed requirement.name = some dist ∧
    forall specifier, requirement.specifier = some specifier ->
      P.contains specifier dist.version = true

/-- The marker of a requirement holds for one of the extras. -/
def ActiveFor (requirement : Requirement Marker Specifier) (extras : Finset Text) : Prop :=
  forall marker, requirement.marker = some marker ->
    exists extra, extra ∈ extras ∧ P.evaluate marker extra = true

/-- The requirements that are reached from the file along active dependencies. -/
inductive ReachedFrom (text : Text) : Requirement Marker Specifier -> Prop where
  | line {line : Text} {requirement : Requirement Marker Specifier}
      (hline : line ∈ requirementLines text) (hparse : P.parse line = .ok requirement)
      (hactive : ActiveFor P requirement {[]}) : ReachedFrom text requirement
  | dependency {requirement dependency : Requirement Marker Specifier} {dist : Distribution}
      {line : Text} (h : ReachedFrom text requirement)
      (hdist : distribution P installed requirement.name = some dist)
      (hline : line ∈ dist.requires.getD []) (hparse : P.parse line = .ok dependency)
      (hactive : ActiveFor P dependency (childActiveExtras requirement)) :
      ReachedFrom text dependency

end

/-!
# The check as a check of a net

A requirement with the extras for which its markers are looked at is an item of a net, whose
key is the canonical name with the extras: what a distribution requires depends on the
canonical name alone.
-/

section

variable {Marker Specifier : Type} {P : Packaging Marker Specifier}
variable {installed : List Distribution}

def parsed (P : Packaging Marker Specifier) (lines : List Text) :
    List (Requirement Marker Specifier) :=
  lines.filterMap fun line => (P.parse line).toOption

theorem mem_parsed {lines : List Text} {requirement : Requirement Marker Specifier} :
    requirement ∈ parsed P lines ↔ exists line, line ∈ lines ∧ P.parse line = .ok requirement := by
  unfold parsed
  rw [List.mem_filterMap]
  apply exists_congr
  intro line
  apply and_congr_right
  intro _
  cases P.parse line with
  | error reason => exact ⟨nofun, nofun⟩
  | ok found => exact ⟨fun h => congrArg Except.ok (Option.some.inj h),
      fun h => congrArg some (Except.ok.inj h)⟩

def requirementNet (P : Packaging Marker Specifier) (installed : List Distribution) :
    Closures.Net (Requirement Marker Specifier × Finset Text) RequirementState where
  active item := markerActive P item.1 item.2
  good item :=
    (distribution P installed item.1.name).any fun dist =>
      item.1.specifier.all fun specifier => P.contains specifier dist.version
  key item := requirementState P item.1
  next item :=
    (parsed P ((distribution P installed item.1.name).elim [] fun dist =>
      dist.requires.getD [])).map fun dependency => (dependency, childActiveExtras item.1)

theorem active_iff {requirement : Requirement Marker Specifier} {extras : Finset Text} :
    markerActive P requirement extras = true ↔ ActiveFor P requirement extras := by
  unfold markerActive ActiveFor
  rw [Option.all_eq_true]
  simp only [decide_eq_true_eq]

theorem good_iff {item : Requirement Marker Specifier × Finset Text} :
    (requirementNet P installed).good item = true ↔ Satisfied P installed item.1 := by
  unfold requirementNet Satisfied
  dsimp only
  rw [Option.any_eq_true]
  simp only [Option.all_eq_true]

theorem mem_next {item next : Requirement Marker Specifier × Finset Text} :
    next ∈ (requirementNet P installed).next item ↔
      exists dist line, distribution P installed item.1.name = some dist ∧
        line ∈ dist.requires.getD [] ∧ P.parse line = .ok next.1 ∧
          next.2 = childActiveExtras item.1 := by
  unfold requirementNet
  dsimp only
  rw [List.mem_map]
  constructor
  · intro h
    rcases h with ⟨dependency, hdependency, rfl⟩
    rcases mem_parsed.mp hdependency with ⟨line, hline, hparse⟩
    cases hdist : distribution P installed item.1.name with
    | none =>
        rw [hdist] at hline
        cases hline
    | some dist =>
        rw [hdist] at hline
        exact ⟨dist, line, rfl, hline, hparse, rfl⟩
  · intro h
    rcases h with ⟨dist, line, hdist, hline, hparse, hextras⟩
    exists next.1
    constructor
    · apply mem_parsed.mpr
      rw [hdist]
      exact ⟨line, hline, hparse⟩
    · rw [← hextras]

theorem keyed_requirementNet : (requirementNet P installed).Keyed := by
  intro x y _ _ hkey
  have hboth : requirementState P x.1 = requirementState P y.1 := hkey
  unfold requirementState at hboth
  rw [Prod.mk.injEq] at hboth
  have hdist : distribution P installed x.1.name = distribution P installed y.1.name := by
    unfold distribution
    rw [hboth.1]
  have hextras : childActiveExtras x.1 = childActiveExtras y.1 := by
    unfold childActiveExtras
    rw [hboth.2]
  unfold requirementNet
  dsimp only
  rw [hdist, hextras]

def orTooDeep {α : Type} : Option α -> Except RequirementError α
  | none => .error .tooDeep
  | some result => .ok result

theorem dependenciesSatisfied_eq
    {satisfied : List RequirementState -> Requirement Marker Specifier -> Finset Text ->
      Except RequirementError (Bool × List RequirementState)}
    {visit : List RequirementState -> Requirement Marker Specifier × Finset Text ->
      Option (Bool × List RequirementState)}
    (hvisit : forall visited requirement extras,
      satisfied visited requirement extras = orTooDeep (visit visited (requirement, extras)))
    (extras : Finset Text) {lines : List Text} (hlines : WellFormed P lines)
    (visited : List RequirementState) :
    dependenciesSatisfied P satisfied extras visited lines =
      orTooDeep (Closures.Net.visitAll visit visited
        ((parsed P lines).map fun dependency => (dependency, extras))) := by
  induction lines generalizing visited with
  | nil => rfl
  | cons line rest ih =>
      have hrest : WellFormed P rest := fun line hline => hlines line (.tail _ hline)
      rcases hlines line (.head _) with ⟨dependency, hparse⟩
      have hcons : parsed P (line :: rest) = dependency :: parsed P rest := by
        unfold parsed
        rw [List.filterMap_cons, hparse]
        rfl
      unfold dependenciesSatisfied
      rw [hparse, hcons, List.map_cons]
      unfold Closures.Net.visitAll
      dsimp only
      rw [hvisit]
      cases visit visited (dependency, extras) with
      | none => rfl
      | some result =>
          rcases result with ⟨ok, visited'⟩
          cases ok with
          | false => rfl
          | true => exact ih hrest visited'

theorem requirementSatisfied_eq (hmetadata : WellFormed P (metadataLines installed)) (fuel : Nat)
    (visited : List RequirementState) (requirement : Requirement Marker Specifier)
    (extras : Finset Text) :
    requirementSatisfied P installed fuel visited requirement extras =
      orTooDeep ((requirementNet P installed).visit fuel visited (requirement, extras)) := by
  induction fuel generalizing visited requirement extras with
  | zero => rfl
  | succ fuel ih =>
      unfold requirementSatisfied Closures.Net.visit
      have hactive : (requirementNet P installed).active (requirement, extras) =
          markerActive P requirement extras := rfl
      rw [hactive]
      cases markerActive P requirement extras with
      | false => rfl
      | true =>
          have hgood : (requirementNet P installed).good (requirement, extras) =
              (distribution P installed requirement.name).any fun dist =>
                requirement.specifier.all fun specifier => P.contains specifier dist.version := rfl
          have hkey : (requirementNet P installed).key (requirement, extras) =
              requirementState P requirement := rfl
          have hnext : (requirementNet P installed).next (requirement, extras) =
              (parsed P ((distribution P installed requirement.name).elim [] fun dist =>
                dist.requires.getD [])).map fun dependency =>
                  (dependency, childActiveExtras requirement) := rfl
          rw [hgood, hkey, hnext]
          cases hdist : distribution P installed requirement.name with
          | none => rfl
          | some dist =>
              have hlines : WellFormed P (dist.requires.getD []) := fun line hline =>
                hmetadata line (List.mem_flatMap.mpr ⟨dist, List.mem_of_find?_eq_some hdist, hline⟩)
              rw [Option.any_some, Option.elim_some]
              dsimp only
              cases requirement.specifier.all fun specifier => P.contains specifier dist.version with
              | false => rfl
              | true =>
                  by_cases hin : requirementState P requirement ∈ visited
                  · simp only [hin, if_true]
                    rfl
                  · simp only [hin, if_false, if_true, Bool.not_true]
                    exact dependenciesSatisfied_eq ih _ hlines _

theorem allSatisfied_eq (hmetadata : WellFormed P (metadataLines installed)) (fuel : Nat)
    (requirements : List (Requirement Marker Specifier)) (visited : List RequirementState) :
    allSatisfied P installed fuel visited requirements =
      orTooDeep ((Closures.Net.visitAll ((requirementNet P installed).visit fuel) visited
        (requirements.map fun requirement => (requirement, {[]}))).map Prod.fst) := by
  induction requirements generalizing visited with
  | nil => rfl
  | cons requirement rest ih =>
      unfold allSatisfied
      rw [List.map_cons]
      unfold Closures.Net.visitAll
      rw [requirementSatisfied_eq hmetadata]
      cases (requirementNet P installed).visit fuel visited (requirement, {[]}) with
      | none => rfl
      | some result =>
          rcases result with ⟨ok, visited'⟩
          cases ok with
          | false => rfl
          | true => exact ih visited'

theorem parseRequirements_eq {lines : List Text} (hlines : WellFormed P lines) :
    parseRequirements P lines = .ok (parsed P lines) := by
  induction lines with
  | nil => rfl
  | cons line rest ih =>
      rcases hlines line (.head _) with ⟨requirement, hparse⟩
      unfold parseRequirements parsed
      rw [List.filterMap_cons, hparse, ih fun line hline => hlines line (.tail _ hline)]
      rfl

/-!
# What the check says

The requirements that the net reaches are those that are reached from the file, and the check
ends, since no way down is longer than the number of lines.
-/

def startOf (P : Packaging Marker Specifier) (text : Text) :
    List (Requirement Marker Specifier × Finset Text) :=
  (parsed P (requirementLines text)).map fun requirement => (requirement, {[]})

theorem reachedFrom_of_reached {text : Text} {item : Requirement Marker Specifier × Finset Text}
    (h : (requirementNet P installed).Reached (startOf P text) item) :
    ReachedFrom P installed text item.1 := by
  induction h with
  | start hin hactive =>
      rcases List.mem_map.mp hin with ⟨requirement, hrequirement, rfl⟩
      rcases mem_parsed.mp hrequirement with ⟨line, hline, hparse⟩
      exact .line hline hparse (active_iff.mp hactive)
  | @next x y _ _ hy hactive ih =>
      rcases mem_next.mp hy with ⟨dist, line, hdist, hline, hparse, hextras⟩
      have hyactive := active_iff.mp (show markerActive P y.1 y.2 = true from hactive)
      rw [hextras] at hyactive
      exact .dependency ih hdist hline hparse hyactive

theorem reached_of_reachedFrom {text : Text} {requirement : Requirement Marker Specifier}
    (hall : forall item, (requirementNet P installed).Reached (startOf P text) item ->
      (requirementNet P installed).good item = true)
    (h : ReachedFrom P installed text requirement) :
    exists extras, (requirementNet P installed).Reached (startOf P text) (requirement, extras) := by
  induction h with
  | line hline hparse hactive =>
      exists {[]}
      apply Closures.Net.Reached.start
      · exact List.mem_map_of_mem (mem_parsed.mpr ⟨_, hline, hparse⟩)
      · exact active_iff.mpr hactive
  | @dependency requirement dependency dist line _ hdist hline hparse hactive ih =>
      rcases ih with ⟨extras, hreached⟩
      exists childActiveExtras requirement
      apply Closures.Net.Reached.next hreached (hall _ hreached)
      · exact mem_next.mpr ⟨dist, line, hdist, hline, hparse, rfl⟩
      · exact active_iff.mpr hactive

theorem forall_good_iff {text : Text} :
    (forall item, (requirementNet P installed).Reached (startOf P text) item ->
      (requirementNet P installed).good item = true) ↔
        forall requirement, ReachedFrom P installed text requirement ->
          Satisfied P installed requirement := by
  constructor
  · intro hall requirement h
    rcases reached_of_reachedFrom hall h with ⟨extras, hreached⟩
    exact good_iff.mp (hall _ hreached)
  · intro hall item h
    exact good_iff.mpr (hall _ (reachedFrom_of_reached h))

/-- The check ends: no way down is longer than the number of lines. -/
theorem check_requirementNet {text : Text} {fuel : Nat}
    (hfuel : (requirementLines text ++ metadataLines installed).length < fuel) :
    exists b, (requirementNet P installed).check fuel (startOf P text) = some b := by
  have hlength : ((parsed P (requirementLines text ++ metadataLines installed)).map
      (requirementState P)).length < fuel := by
    rw [List.length_map]
    exact Nat.lt_of_le_of_lt (List.length_filterMap_le _ _) hfuel
  have hmem : forall item : Requirement Marker Specifier × Finset Text,
      (exists line, line ∈ requirementLines text ++ metadataLines installed ∧
        P.parse line = .ok item.1) ->
      item.1 ∈ parsed P (requirementLines text ++ metadataLines installed) :=
    fun item h => mem_parsed.mpr h
  apply Closures.check_ends
    (D := fun item => item.1 ∈ parsed P (requirementLines text ++ metadataLines installed))
    _ _ _ hlength
  · intro item hitem _
    exact List.mem_map_of_mem hitem
  · intro item _ next hnext
    rcases mem_next.mp hnext with ⟨dist, line, hdist, hline, hparse, _⟩
    apply hmem
    exists line
    constructor
    · apply List.mem_append_right
      exact List.mem_flatMap.mpr ⟨dist, List.mem_of_find?_eq_some hdist, hline⟩
    · exact hparse
  · intro item hitem
    rcases List.mem_map.mp hitem with ⟨requirement, hrequirement, rfl⟩
    rcases mem_parsed.mp hrequirement with ⟨line, hline, hparse⟩
    exact hmem _ ⟨line, List.mem_append_left _ hline, hparse⟩

/--
With lines that are all requirements, the check ends, and it says yes exactly when every
requirement that is reached from the file is satisfied.
-/
theorem requirementsInstalled_exact {text : Text} (hlines : WellFormed P (requirementLines text))
    (hmetadata : WellFormed P (metadataLines installed)) {fuel : Nat}
    (hfuel : (requirementLines text ++ metadataLines installed).length < fuel) :
    exists b, requirementsInstalled P installed fuel text = .ok b ∧
      (b = true ↔ forall requirement, ReachedFrom P installed text requirement ->
        Satisfied P installed requirement) := by
  rcases check_requirementNet (P := P) hfuel with ⟨b, hb⟩
  exists b
  constructor
  · unfold requirementsInstalled
    rw [parseRequirements_eq hlines]
    dsimp only
    rw [allSatisfied_eq hmetadata]
    have hcheck : (Closures.Net.visitAll ((requirementNet P installed).visit fuel) []
        ((parsed P (requirementLines text)).map fun requirement => (requirement, {[]}))).map
          Prod.fst = some b := hb
    rw [hcheck]
    rfl
  · rw [← forall_good_iff]
    exact Closures.check_eq_some keyed_requirementNet hb

end

def barePackaging : Packaging Text Text where
  parse line := .ok ⟨line, ∅, none, none⟩
  evaluate marker extra := marker = extra
  contains specifier version := specifier = version
  canonicalizeName := id

def mutualDistributions : List Distribution :=
  [⟨"celery".toList, "5.4".toList, some ["kombu".toList]⟩,
    ⟨"kombu".toList, "5.5".toList, some ["celery".toList]⟩]

theorem requirementsInstalled_exact_mutual :
    exists b, requirementsInstalled barePackaging mutualDistributions 4 "celery\n".toList = .ok b ∧
      (b = true ↔ forall requirement,
        ReachedFrom barePackaging mutualDistributions "celery\n".toList requirement ->
          Satisfied barePackaging mutualDistributions requirement) :=
  requirementsInstalled_exact (fun _ _ => ⟨_, rfl⟩) (fun _ _ => ⟨_, rfl⟩) (by decide)

end Plugin
end RagService
