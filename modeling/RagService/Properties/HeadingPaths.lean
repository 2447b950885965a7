import RagService.Foundation.Outlines
import RagService.Properties.WholeText

/-!
# Heading paths

The sections of a text beside the same sections with the paths of a stack of open headings.
The split keeps titles without their levels, so the paths agree as long as a heading never
closes another one while a level above it is missing.
-/

namespace RagService
namespace HeadingPaths

open Text Chunking Outlines

/-!
# Sections by a stack of open headings

The level and the trimmed title of each heading line decide the path, by the open headings.
-/

def headingOf (line : Text) : Option (Nat × Text) :=
  (headingMatch line).map fun (level, title) => (level, strip title)

def closeSection (path lines : List Text) : List (List Text × List Text) :=
  if lines.isEmpty then [] else [(path, lines)]

/-- Cut lines into sections at the marks, with the path of the state that a mark leads to. -/
def cut {σ : Type} (mark : σ -> Text -> Option σ) (pathOf : σ -> List Text) :
    σ -> List Text -> List Text -> List (List Text × List Text)
  | state, current, [] => closeSection (pathOf state) current
  | state, current, line :: rest =>
      match mark state line with
      | some next => closeSection (pathOf state) current ++ cut mark pathOf next [line] rest
      | none => cut mark pathOf state (current ++ [line]) rest

def pushLine (stack : List (Nat × Text)) (line : Text) : Option (List (Nat × Text)) :=
  (headingOf line).map (push stack)

def outlineSections (content : Text) : List (List Text × List Text) :=
  cut pushLine path [] [] (splitLines content)

def headings (text : Text) : List (Nat × Text) :=
  (splitLines (cleanText text)).filterMap headingOf

def sectionHeading (part : List Text × List Text) : Option (Nat × Text) :=
  part.2.head?.bind headingOf

def NoPageMarks (text : Text) : Prop :=
  forall line, line ∈ splitLines (cleanText text) -> pageMatch line = none

instance (text : Text) : Decidable (NoPageMarks text) :=
  inferInstanceAs (Decidable (forall line, line ∈ splitLines (cleanText text) -> pageMatch line = none))

/-- The paths follow the headings. -/
structure FollowsHeadings (text : Text) (chunkSize overlap : Nat) : Prop where
  paths : splitParentChildText text chunkSize overlap =
    parents chunkSize overlap (outlineSections (cleanText text))
  siblings : forall before first between second after level title title',
    splitSections (cleanText text) = before ++ first :: between ++ second :: after ->
      sectionHeading first = some (level, title) -> sectionHeading second = some (level, title') ->
        (forall part heading, part ∈ between -> sectionHeading part = some heading ->
          level ≤ heading.1) ->
          first.1.length = second.1.length ∧ first.1.dropLast = second.1.dropLast

/-- Each heading is deeper than the one before it, or has all the levels above it open. -/
def HeadingsDescend (headings : List (Nat × Text)) : Prop :=
  forall before heading after, headings = before ++ heading :: after -> Descends before heading

/-!
# The sections of the source

A heading line starts with a number sign, and the sections of the source are cut at the same
lines.
-/

theorem cut_line {σ : Type} (mark : σ -> Text -> Option σ) (pathOf : σ -> List Text) (state : σ)
    (current : List Text) (line : Text) (rest : List Text) :
    cut mark pathOf state current (line :: rest) =
      match mark state line with
      | some next => closeSection (pathOf state) current ++ cut mark pathOf next [line] rest
      | none => cut mark pathOf state (current ++ [line]) rest :=
  rfl

theorem foldl_sectionLine_eq (lines : List Text) (s : Sections) :
    (lines.foldl sectionLine s).close =
      s.sections ++ cut markedPath id s.headingPath s.sectionLines lines := by
  induction lines generalizing s with
  | nil =>
      show s.close = s.sections ++ closeSection s.headingPath s.sectionLines
      unfold Sections.close closeSection
      cases s.sectionLines.isEmpty with
      | true => exact (List.append_nil _).symm
      | false => rfl
  | cons line rest ih =>
      rw [List.foldl_cons, ih, cut_line]
      unfold sectionLine
      cases markedPath s.headingPath line with
      | none => rfl
      | some next =>
          show s.close ++ _ = _
          unfold Sections.close closeSection
          cases s.sectionLines.isEmpty with
          | true => rfl
          | false => exact List.append_assoc _ _ _

theorem splitSections_eq_cut (content : Text) :
    splitSections content = cut markedPath id [] [] (splitLines content) :=
  foldl_sectionLine_eq (splitLines content) ⟨[], [], []⟩

theorem markedPath_of_noPage {line : Text} (h : pageMatch line = none) (path : List Text) :
    markedPath path line =
      (headingOf line).map fun heading => path.take (heading.1 - 1) ++ [heading.2] := by
  unfold markedPath headingOf
  rw [h]
  dsimp only
  rw [Option.map_map]
  rfl

theorem headingOf_level {line : Text} {heading : Nat × Text} (h : headingOf line = some heading) :
    1 ≤ heading.1 := by
  unfold headingOf headingMatch at h
  rcases Option.map_eq_some_iff.mp h with ⟨⟨level, title⟩, hmatch, rfl⟩
  dsimp only at hmatch ⊢
  split at hmatch
  · rename_i hcond
    split at hmatch
    · rw [Option.some.injEq, Prod.mk.injEq] at hmatch
      rw [← hmatch.1]
      exact hcond.1
    · split at hmatch
      · rw [Option.some.injEq, Prod.mk.injEq] at hmatch
        rw [← hmatch.1]
        exact hcond.1
      · cases hmatch
  · cases hmatch

theorem mem_of_headingOf {line : Text} {heading : Nat × Text} (h : headingOf line = some heading) :
    '#' ∈ line := by
  unfold headingOf headingMatch at h
  rcases Option.map_eq_some_iff.mp h with ⟨⟨level, title⟩, hmatch, -⟩
  dsimp only at hmatch
  split at hmatch
  · rename_i hcond
    cases line with
    | nil => exact absurd hcond.1 (by decide)
    | cons c rest =>
        cases hc : decide (c = '#') with
        | true =>
            rw [of_decide_eq_true hc]
            exact List.mem_cons_self
        | false =>
            have hnil : (c :: rest).takeWhile (· = '#') = [] :=
              List.takeWhile_cons_of_neg (by rw [hc]; decide)
            rw [hnil] at hcond
            exact absurd hcond.1 (by decide)
  · cases hmatch

/-!
# One section after another

A section that starts with a heading is not left out.
-/

section Cutting

variable {σ : Type}

theorem cut_cons (mark : σ -> Text -> Option σ) (pathOf : σ -> List Text) (state : σ) (line : Text)
    (current lines : List Text) : exists body rest, cut mark pathOf state (line :: current) lines =
      (pathOf state, line :: body) :: rest := by
  induction lines generalizing current with
  | nil => exact ⟨current, [], rfl⟩
  | cons next lines ih =>
      rw [cut_line]
      cases mark state next with
      | none =>
          rw [List.cons_append]
          exact ih (current ++ [next])
      | some state' => exact ⟨current, cut mark pathOf state' [next] lines, rfl⟩

end Cutting

theorem parents_append (chunkSize overlap : Nat) (front back : List (List Text × List Text)) :
    parents chunkSize overlap (front ++ back) =
      parents chunkSize overlap front ++ parents chunkSize overlap back :=
  List.filterMap_append

theorem parents_cons {line : Text} {heading : Nat × Text} (h : headingOf line = some heading)
    (chunkSize overlap : Nat) (path body : List Text) (rest : List (List Text × List Text)) :
    exists parent, parents chunkSize overlap ((path, line :: body) :: rest) =
      ⟨path, parent, splitText parent chunkSize overlap⟩ :: parents chunkSize overlap rest := by
  have hmem : '#' ∈ cleanText (join ['\n'] (line :: body)) :=
    mem_cleanText ((isInfix_join List.mem_cons_self).subset (mem_of_headingOf h))
      ⟨by decide, by decide⟩
  exists cleanText (join ['\n'] (line :: body))
  unfold parents
  rw [List.filterMap_cons]
  dsimp only
  rw [if_neg]
  rw [List.isEmpty_iff]
  exact List.ne_nil_of_mem hmem

/-!
# Where the paths agree

From a state in which the paths agree, the rest of the lines is cut with the same paths if and
only if the headings descend; and leaving out empty sections hides no difference.
-/

def DescendsFrom (before headings : List (Nat × Text)) : Prop :=
  forall front heading back, headings = front ++ heading :: back ->
    Descends (before ++ front) heading

theorem descendsFrom_nil (before : List (Nat × Text)) : DescendsFrom before [] := by
  intro front heading back h
  cases front <;> cases h

theorem descendsFrom_cons {before : List (Nat × Text)} {first : Nat × Text}
    {rest : List (Nat × Text)} : DescendsFrom before (first :: rest) ↔
      Descends before first ∧ DescendsFrom (before ++ [first]) rest := by
  constructor
  · intro h
    constructor
    · have hfirst := h [] first rest rfl
      rw [List.append_nil] at hfirst
      exact hfirst
    · intro front heading back hrest
      have hlater := h (first :: front) heading back (by rw [hrest]; rfl)
      rw [List.append_assoc]
      exact hlater
  · intro h front heading back happend
    cases front with
    | nil =>
        rw [List.nil_append, List.cons.injEq] at happend
        rw [List.append_nil, ← happend.1]
        exact h.1
    | cons head front =>
        rw [List.cons_append, List.cons.injEq] at happend
        have hlater := h.2 front heading back happend.2
        rw [List.append_assoc, List.singleton_append, happend.1] at hlater
        exact hlater

theorem path_of_parents_eq {σ τ : Type} {mark : σ -> Text -> Option σ} {pathOf : σ -> List Text}
    {mark' : τ -> Text -> Option τ} {pathOf' : τ -> List Text} {state : σ} {state' : τ}
    {chunkSize overlap : Nat} {line : Text} {lines : List Text} {heading : Nat × Text}
    (hline : headingOf line = some heading)
    (h : parents chunkSize overlap (cut mark pathOf state [line] lines) =
      parents chunkSize overlap (cut mark' pathOf' state' [line] lines)) :
    pathOf state = pathOf' state' := by
  rcases cut_cons mark pathOf state line [] lines with ⟨body, later, hcut⟩
  rcases cut_cons mark' pathOf' state' line [] lines with ⟨body', later', hcut'⟩
  rw [hcut, hcut'] at h
  rcases parents_cons hline chunkSize overlap (pathOf state) body later with ⟨parent, hparent⟩
  rcases parents_cons hline chunkSize overlap (pathOf' state') body' later' with
    ⟨parent', hparent'⟩
  rw [hparent, hparent'] at h
  exact congrArg ParentChildChunks.headingPath (List.cons.inj h).1

/--
From a state in which the paths agree, the rest of the lines is cut with the same paths if and
only if the headings descend; and leaving out empty sections hides no difference.
-/
theorem cut_eq_iff (chunkSize overlap : Nat) {lines : List Text}
    (hpage : forall line, line ∈ lines -> pageMatch line = none) (before : List (Nat × Text))
    (hlevels : forall heading, heading ∈ before -> 1 ≤ heading.1) (current : List Text) :
    (parents chunkSize overlap (cut markedPath id (path (openAfter before)) current lines) =
        parents chunkSize overlap (cut pushLine path (openAfter before) current lines) ↔
      DescendsFrom before (lines.filterMap headingOf)) ∧
    (DescendsFrom before (lines.filterMap headingOf) ->
      cut markedPath id (path (openAfter before)) current lines =
        cut pushLine path (openAfter before) current lines) := by
  induction lines generalizing before current with
  | nil =>
      constructor
      · constructor
        · intro _
          exact descendsFrom_nil before
        · intro _
          rfl
      · intro _
        rfl
  | cons line rest ih =>
      have hrest : forall later, later ∈ rest -> pageMatch later = none :=
        fun later hlater => hpage later (List.mem_cons_of_mem _ hlater)
      rw [cut_line, cut_line, markedPath_of_noPage (hpage line List.mem_cons_self),
        List.filterMap_cons]
      have hpush : pushLine (openAfter before) line =
        (headingOf line).map (push (openAfter before)) := rfl
      rw [hpush]
      cases hline : headingOf line with
      | none => exact ih hrest before hlevels (current ++ [line])
      | some heading =>
          have hlevels' : forall earlier, earlier ∈ before ++ [heading] -> 1 ≤ earlier.1 := by
            intro earlier hearlier
            cases List.mem_append.mp hearlier with
            | inl hin => exact hlevels earlier hin
            | inr hin =>
                rw [List.mem_singleton.mp hin]
                exact headingOf_level hline
          have hpath := take_path_openAfter hlevels heading
          have hih := ih hrest (before ++ [heading]) hlevels' [line]
          dsimp only [Option.map_some, id_eq]
          rw [descendsFrom_cons, parents_append, parents_append, List.append_cancel_left_eq,
            ← openAfter_concat]
          constructor
          · constructor
            · intro heq
              have hsame := path_of_parents_eq hline heq
              have hdescends := hpath.mp hsame
              constructor
              · exact hdescends
              · rw [hpath.mpr hdescends] at heq
                exact hih.1.mp heq
            · intro hdescend
              rw [hpath.mpr hdescend.1]
              exact hih.1.mpr hdescend.2
          · intro hdescend
            rw [hpath.mpr hdescend.1, hih.2 hdescend.2]

/-!
# Siblings

A section has the path of the headings that the sections up to it start with.
-/

theorem filterMap_sectionHeading_cons (part : List Text × List Text)
    (rest : List (List Text × List Text)) :
    (part :: rest).filterMap sectionHeading =
      (sectionHeading part).toList ++ rest.filterMap sectionHeading := by
  rw [List.filterMap_cons]
  cases sectionHeading part with
  | none => rfl
  | some heading => rfl

theorem cut_path {lines : List Text} (current : List Text) (earlier : List (Nat × Text))
    {before after : List (List Text × List Text)} {part : List Text × List Text}
    (h : cut pushLine path (openAfter (earlier ++ (current.head?.bind headingOf).toList))
      current lines = before ++ part :: after) :
    part.1 = path (openAfter (earlier ++ (before ++ [part]).filterMap sectionHeading)) := by
  induction lines generalizing current earlier before with
  | nil =>
      unfold cut closeSection at h
      cases current with
      | nil => cases before <;> cases h
      | cons line rest =>
          cases before with
          | nil =>
              have hpart := (List.cons.inj h).1
              rw [← hpart, List.nil_append, filterMap_sectionHeading_cons, List.filterMap_nil,
                List.append_nil]
              rfl
          | cons head before => cases before <;> cases (List.cons.inj h).2
  | cons line rest ih =>
      have hpush : forall state, pushLine state line = (headingOf line).map (push state) :=
        fun _ => rfl
      rw [cut_line, hpush] at h
      cases hline : headingOf line with
      | none =>
          rw [hline] at h
          apply ih (current ++ [line]) earlier
          cases current with
          | nil =>
              rw [List.nil_append, List.head?_cons, Option.bind_some, hline]
              exact h
          | cons first body => exact h
      | some heading =>
          rw [hline] at h
          dsimp only [Option.map_some] at h
          rw [← openAfter_concat] at h
          have hnext : ([line].head?.bind headingOf).toList = [heading] := by
            rw [List.head?_cons, Option.bind_some, hline]
            rfl
          rw [← hnext] at h
          cases current with
          | nil =>
              have hnone : (([] : List Text).head?.bind headingOf).toList = [] := rfl
              rw [hnone, List.append_nil] at h
              exact ih _ _ h
          | cons first body =>
              cases before with
              | nil =>
                  have hpart := (List.cons.inj h).1
                  rw [← hpart, List.nil_append, filterMap_sectionHeading_cons, List.filterMap_nil,
                    List.append_nil]
                  rfl
              | cons head before =>
                  have hparts := List.cons.inj h
                  rw [ih _ _ hparts.2, List.append_assoc, ← hparts.1, List.cons_append,
                    filterMap_sectionHeading_cons]
                  rfl

theorem cut_siblings {lines : List Text} {before between after : List (List Text × List Text)}
    {first second : List Text × List Text} {level : Nat} {title title' : Text}
    (h : cut pushLine path [] [] lines = before ++ first :: between ++ second :: after)
    (hfirst : sectionHeading first = some (level, title))
    (hsecond : sectionHeading second = some (level, title'))
    (hbetween : forall part heading, part ∈ between -> sectionHeading part = some heading ->
      level ≤ heading.1) :
    first.1.length = second.1.length ∧ first.1.dropLast = second.1.dropLast := by
  have hpath : first.1 = path (openAfter (before.filterMap sectionHeading ++ [(level, title)])) := by
    have hsplit : cut pushLine path [] [] lines =
        before ++ first :: (between ++ second :: after) := by
      rw [h, List.append_assoc, List.cons_append]
    have hcut := cut_path [] [] hsplit
    rw [hcut, List.nil_append, List.filterMap_append, filterMap_sectionHeading_cons, hfirst]
    rfl
  have hpath' : second.1 = path (openAfter (before.filterMap sectionHeading ++
      (level, title) :: between.filterMap sectionHeading ++ [(level, title')])) := by
    have hcut := cut_path [] [] h
    rw [hcut, List.nil_append, List.filterMap_append, List.filterMap_append,
      filterMap_sectionHeading_cons, filterMap_sectionHeading_cons, hfirst, hsecond]
    rfl
  have hdeeper : forall heading, heading ∈ between.filterMap sectionHeading ->
      level ≤ heading.1 := by
    intro heading hheading
    rcases List.mem_filterMap.mp hheading with ⟨part, hpart, hsome⟩
    exact hbetween part heading hpart hsome
  rcases path_sibling (before.filterMap sectionHeading) (level, title) (level, title') rfl
    hdeeper with ⟨parent, hone, hother⟩
  rw [hpath, hpath', hone, hother]
  constructor
  · rw [List.length_append, List.length_append]
    rfl
  · rw [List.dropLast_concat, List.dropLast_concat]

/-!
# The paths of a text
-/

/--
The paths of the sections follow the headings if and only if each heading is deeper than the
one before it or has all the levels above it open.
-/
theorem paths_follow_headings {text : Text} (hpage : NoPageMarks text)
    (chunkSize overlap : Nat) :
    FollowsHeadings text chunkSize overlap ↔ HeadingsDescend (headings text) := by
  have hcut := cut_eq_iff chunkSize overlap hpage [] (fun _ h => nomatch h) []
  have hsource : cut markedPath id (path (openAfter [])) [] (splitLines (cleanText text)) =
      splitSections (cleanText text) :=
    (splitSections_eq_cut (cleanText text)).symm
  rw [hsource] at hcut
  constructor
  · intro h
    have hpaths := h.paths
    rw [splitParentChildText_eq] at hpaths
    exact hcut.1.mp hpaths
  · intro h
    have hsections : splitSections (cleanText text) = outlineSections (cleanText text) := hcut.2 h
    constructor
    · rw [splitParentChildText_eq, hsections]
    · intro before first between second after level title title' happend hfirst hsecond hbetween
      rw [hsections] at happend
      exact cut_siblings happend hfirst hsecond hbetween

theorem paths_follow_headings_sample :
    FollowsHeadings "# A\n## B\n# C".toList 10 0 ↔
      HeadingsDescend (headings "# A\n## B\n# C".toList) :=
  paths_follow_headings (by decide) 10 0

/-- Two headings of the second level, in a document without a heading of the first. -/
theorem paths_follow_headings_fails :
    NoPageMarks "## A\n## B".toList ∧ ¬ FollowsHeadings "## A\n## B".toList 10 0 := by
  constructor
  · decide
  · intro h
    have hpaths := congrArg (List.map ParentChildChunks.headingPath) h.paths
    exact absurd hpaths (by decide)

end HeadingPaths
end RagService
