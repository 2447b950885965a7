import RagService.Evaluation.ResultFiles
import RagService.Foundation.JsonLines

/-!
# Results read back

A file of results gives the results again exactly if no text in them has a break that JSON
leaves as it is.
-/

namespace RagService
namespace Runner

open Json Text

/-!
# Objects in any order

The order of the keywords makes no difference.
-/

section Fields

variable {fields others : List (Text × Json)}

theorem field_eq_some_iff (hkeys : (fields.map Prod.fst).Nodup) {key : Text} {v : Json} :
    field fields key = some v ↔ (key, v) ∈ fields := by
  unfold field
  rw [Option.map_eq_some_iff]
  constructor
  · intro h
    rcases h with ⟨f, hfind, rfl⟩
    have hkey : f.1 = key := by simpa using List.find?_some hfind
    rw [← hkey]
    exact List.mem_of_find?_eq_some hfind
  · intro hmem
    cases hfind : fields.find? fun f => f.1 = key with
    | none => exact absurd (decide_eq_true rfl) (List.find?_eq_none.mp hfind _ hmem)
    | some f =>
        have hkey : f.1 = key := by simpa using List.find?_some hfind
        have hsame := List.inj_on_of_nodup_map hkeys (List.mem_of_find?_eq_some hfind) hmem hkey
        exact ⟨f, rfl, congrArg Prod.snd hsame⟩

theorem field_perm (hperm : fields.Perm others) (hkeys : (others.map Prod.fst).Nodup)
    (key : Text) : field fields key = field others key := by
  have hkeys' : (fields.map Prod.fst).Nodup := (hperm.map Prod.fst).nodup_iff.mpr hkeys
  ext v
  rw [field_eq_some_iff hkeys', field_eq_some_iff hkeys, hperm.mem_iff]

theorem construct_perm (hperm : fields.Perm others) (hkeys : (others.map Prod.fst).Nodup) :
    construct (.obj fields) = construct (.obj others) := by
  unfold construct
  simp only [hperm.mem_iff, field_perm hperm hkeys]

theorem unbrokenFields_iff :
    UnbrokenFields fields ↔ forall f, f ∈ fields -> UnbrokenText f.1 ∧ f.2.Unbroken := by
  induction fields with
  | nil => exact iff_of_true trivial (List.forall_mem_nil _)
  | cons f rest ih => rw [UnbrokenFields, ih, List.forall_mem_cons, and_assoc]

theorem legibleItems_ints (ids : List Int) : LegibleItems (ids.map Json.int) := by
  induction ids with
  | nil => trivial
  | cons z rest ih => exact ⟨trivial, ih⟩

theorem unbrokenItems_ints (ids : List Int) : UnbrokenItems (ids.map Json.int) := by
  induction ids with
  | nil => trivial
  | cons z rest ih => exact ⟨trivial, ih⟩

end Fields

/-!
# One result

The fields say which result it is, and each is read back as it is written.
-/

section

variable {K : Type} {number : K -> Json}

/-- What `json` writes for a number and reads back as it was. -/
def IsNumber (v : Json) : Prop :=
  (exists z, v = .int z) ∨ exists literal, v = .float literal ∧ Literal literal ∧ OneLine literal

theorem IsNumber.legible {v : Json} (h : IsNumber v) : v.Legible := by
  rcases h with ⟨z, rfl⟩ | ⟨literal, rfl, hliteral, -⟩
  · trivial
  · exact hliteral

theorem IsNumber.unbroken {v : Json} (h : IsNumber v) : v.Unbroken := by
  rcases h with ⟨z, rfl⟩ | ⟨literal, rfl, -, hline⟩
  · trivial
  · exact hline

theorem nodup_keys_dict (result : EvaluationResult K) :
    ((dict number result).map Prod.fst).Nodup := by
  show (parameters.map Prod.fst).Nodup
  decide

/-- The fields say which result it is. -/
theorem dict_injective (hnumber : Function.Injective number) :
    Function.Injective (dict number) := by
  intro first second h
  simp only [dict, List.cons.injEq, Prod.mk.injEq, true_and, Json.str.injEq, Json.arr.injEq,
    Json.bool.injEq, Json.int.injEq, hnumber.eq_iff, and_true,
    (List.map_injective_iff.mpr fun _ _ => Json.int.inj).eq_iff] at h
  rcases first with ⟨⟩
  rcases second with ⟨⟩
  simp only at h
  simp only [EvaluationResult.mk.injEq]
  exact h

theorem construct_dict (result : EvaluationResult K) :
    construct (.obj (dict number result)) = .ok (dict number result) := by
  have hknown : ¬ exists f, f ∈ dict number result ∧ f.1 ∉ parameters.map Prod.fst := by
    intro h
    rcases h with ⟨f, hf, hname⟩
    have hkey : f.1 ∈ (dict number result).map Prod.fst := List.mem_map_of_mem hf
    exact hname hkey
  unfold construct
  dsimp only
  rw [if_neg hknown]
  rfl

def sortedDict (number : K -> Json) (result : EvaluationResult K) : List (Text × Json) :=
  Sorting.sortOn Prod.fst (dict number result)

theorem sortedDict_perm (result : EvaluationResult K) :
    (sortedDict number result).Perm (dict number result) :=
  Sorting.perm_sortOn Prod.fst _

theorem legible_sortedDict (hnumber : forall x, IsNumber (number x))
    (result : EvaluationResult K) : (obj (sortedDict number result)).Legible := by
  have hperm : (sortedDict number result).Perm (dict number result) := sortedDict_perm result
  refine ⟨(hperm.map Prod.fst).nodup_iff.mpr (nodup_keys_dict result), ?_⟩
  rw [legibleFields_iff]
  intro f hf
  rw [hperm.mem_iff] at hf
  revert f
  simp only [dict, List.forall_mem_cons]
  exact ⟨trivial, legibleItems_ints _, legibleItems_ints _, trivial, (hnumber _).legible, trivial,
    trivial, trivial, trivial, (hnumber _).legible, trivial, trivial, trivial, trivial,
    (hnumber _).legible, List.forall_mem_nil _⟩

theorem unbroken_sortedDict (hnumber : forall x, IsNumber (number x))
    (result : EvaluationResult K) : (obj (sortedDict number result)).Unbroken ↔
      UnbrokenText result.caseId ∧ UnbrokenText result.mode := by
  have hkeys : forall f, f ∈ dict number result -> UnbrokenText f.1 := by
    rw [← List.forall_mem_map]
    show forall key, key ∈ parameters.map Prod.fst -> UnbrokenText key
    decide
  rw [Unbroken, unbrokenFields_iff]
  simp only [(sortedDict_perm result).mem_iff]
  constructor
  · intro h
    constructor
    · exact (h ("case_id".toList, .str result.caseId) (by simp [dict])).2
    · exact (h ("mode".toList, .str result.mode) (by simp [dict])).2
  · intro h f hf
    rcases h with ⟨hcaseId, hmode⟩
    refine ⟨hkeys f hf, ?_⟩
    revert f
    simp only [dict, List.forall_mem_cons]
    exact ⟨hcaseId, unbrokenItems_ints _, unbrokenItems_ints _, trivial, (hnumber _).unbroken,
      hmode, trivial, trivial, trivial, (hnumber _).unbroken, trivial, trivial, trivial, trivial,
      (hnumber _).unbroken, List.forall_mem_nil _⟩

theorem loadResult_sortedDict (hnumber : forall x, IsNumber (number x))
    (result : EvaluationResult K) :
    loadResult (dumps false (obj (sortedDict number result))) = .ok (dict number result) := by
  unfold loadResult
  rw [loads_dumps_legible false _ (legible_sortedDict hnumber result)]
  exact (construct_perm (sortedDict_perm result) (nodup_keys_dict result)).trans
    (construct_dict result)

end

/-!
# All results

A result that found the chunk 2 in seven milliseconds.
-/

theorem length_of_mapM {α β : Type} {f : α -> Except Exception β} {xs : List α} {ys : List β}
    (h : xs.mapM f = .ok ys) : ys.length = xs.length := by
  induction xs generalizing ys with
  | nil =>
      cases h
      rfl
  | cons x rest ih =>
      rw [List.mapM_cons] at h
      rcases bind_eq_ok.mp h with ⟨y, -, h⟩
      rcases bind_eq_ok.mp h with ⟨tail, htail, h⟩
      cases h
      rw [List.length_cons, List.length_cons, ih htail]

theorem mapM_eq_map {α β : Type} {f : α -> Except Exception β} {g : α -> β} {xs : List α}
    (h : forall x, x ∈ xs -> f x = .ok (g x)) : xs.mapM f = .ok (xs.map g) := by
  induction xs with
  | nil => rfl
  | cons x rest ih =>
      rw [List.forall_mem_cons] at h
      rw [List.mapM_cons, h.1, ih h.2]
      rfl

section

variable {K : Type} {number : K -> Json}

theorem writeResults_eq (results : List (EvaluationResult K)) :
    writeResults number results = dumpLines (results.map (sortedDict number)) := by
  rw [writeResults, dumpLines, List.map_map]
  rfl

theorem loadResults_eq (content : Text) :
    loadResults content = (visibleLines content).mapM loadResult :=
  rfl

/--
What is written is read back as it was if no `case_id` and no `mode` has one of the three
breaks that are written as they are, and otherwise it is not.
-/
theorem results_read_back (hnumber : forall x, IsNumber (number x))
    (results : List (EvaluationResult K)) :
    loadResults (writeResults number results) = .ok (results.map (dict number)) ↔
      forall result, result ∈ results ->
        UnbrokenText result.caseId ∧ UnbrokenText result.mode := by
  have hunbroken : (forall fields, fields ∈ results.map (sortedDict number) ->
      (obj fields).Unbroken) ↔ forall result, result ∈ results ->
        UnbrokenText result.caseId ∧ UnbrokenText result.mode := by
    rw [List.forall_mem_map]
    exact forall_congr' fun result => imp_congr_right fun _ => unbroken_sortedDict hnumber result
  rw [loadResults_eq, writeResults_eq, ← hunbroken]
  constructor
  · intro hload
    have hlength := length_of_mapM hload
    have hmaps : (results.map (dict number)).length = (results.map (sortedDict number)).length :=
      (List.length_map _).trans (List.length_map _).symm
    exact (length_visibleLines_dumpLines _).mp (hlength.symm.trans hmaps)
  · intro h
    rw [visibleLines_dumpLines_unbroken h, List.map_map, List.mapM_map]
    apply mapM_eq_map
    intro result _
    rw [Function.comp_apply, Function.comp_apply]
    exact loadResult_sortedDict hnumber result

end

def wholeFloat (n : Nat) : Json :=
  .float (decimal n ++ ".0".toList)

theorem isNumber_wholeFloat (n : Nat) : IsNumber (wholeFloat n) := by
  have hdigits : OneLine (decimal n) := by
    intro c hc
    exact isLineBreak_of_isDigit (isDigit_of_mem_decimal hc)
  have hfraction : OneLine ".0".toList := by decide
  have hzero : forall c, c ∈ ['0'] -> c.isDigit = true := by
    intro c hc
    rw [List.mem_singleton.mp hc]
    decide
  refine .inr ⟨_, rfl, ?_, oneLine_append.mpr ⟨hdigits, hfraction⟩⟩
  exact literal_decimal n (List.cons_ne_nil _ _) hzero

def quickResult (caseId : Text) : EvaluationResult Nat where
  caseId := caseId
  retrievedChunkIds := [2]
  citedChunkIds := []
  abstained := false
  latencyMs := 7
  mode := "retrieval".toList
  rerankCalled := false
  rerankSucceeded := false
  rerankTokens := 0
  rerankCostCny := 0
  chatCalled := false
  chatSucceeded := false
  chatPromptTokens := 0
  chatCompletionTokens := 0
  chatCostCny := 0

theorem quick_result_read_back :
    loadResults (writeResults wholeFloat [quickResult "c1".toList]) =
        .ok ([quickResult "c1".toList].map (dict wholeFloat)) ↔
      forall result, result ∈ [quickResult "c1".toList] ->
        UnbrokenText result.caseId ∧ UnbrokenText result.mode :=
  results_read_back isNumber_wholeFloat [quickResult "c1".toList]

/-- A `case_id` of one line separator: its result is written on two lines. -/
theorem line_separator_not_read_back :
    loadResults (writeResults wholeFloat [quickResult [Char.ofNat 0x2028]]) ≠
      .ok ([quickResult [Char.ofNat 0x2028]].map (dict wholeFloat)) := by
  have hfails : (loadResults (writeResults wholeFloat [quickResult [Char.ofNat 0x2028]])).isOk =
      false := by decide +kernel
  intro hload
  rw [hload] at hfails
  cases hfails

end Runner
end RagService
