import RagService.Admin.OperaLog
import RagService.Foundation.Redaction

/-!
# Redacted values and the operation log

Two requests that differ in redacted values only, and what the log tells of them.
-/

namespace RagService
namespace OperaLog

open Json

/-!
# Requests that differ in redacted values

A client writes the JSON of a value and of the values that differ from it under redacted keys,
each of which is read back.
-/

def maskPairs {V : Type} (pairs : List (Text × V)) : List (Text × Option V) :=
  pairs.map fun p => (p.1, if p.1 ∈ redactKeys then none else some p.2)

/--
A client that writes, in its style, the JSON of a value and of the values that differ from it
under redacted keys; they are read back.
-/
structure Writes (env : LogEnv) (style : Style) (v : Json) : Prop where
  legible : v.Legible
  visible : forall w : Json, w.Legible -> w.write style ≠ []
  reads : forall w : Json, w.Legible -> w.masked redactKeys = v.masked redactKeys ->
    requestJson env (Text.encode (w.write style)) = some w

def AlikeBodies (env : LogEnv) (r r' : Request) : Prop :=
  if isForm r then
    (env.form r.contentType r.body).map maskPairs =
      (env.form r.contentType r'.body).map maskPairs
  else
    r.body = r'.body ∨ exists (style : Style) (v w : Json), Writes env style v ∧ w.Legible ∧
      w.masked redactKeys = v.masked redactKeys ∧ r.body = Text.encode (v.write style) ∧
        r'.body = Text.encode (w.write style)

/-- Requests that differ only in the values under redacted keys. -/
structure Alike (env : LogEnv) (r r' : Request) : Prop where
  query : maskPairs r.query = maskPairs r'.query
  pathParams : maskPairs r.pathParams = maskPairs r'.pathParams
  contentType : r.contentType = r'.contentType
  contentLength : r.contentLength = r'.contentLength
  bodies : AlikeBodies env r r'

/-- A redacted key is in an object that is not the outermost one. -/
def Nested : Json -> Prop
  | .obj fields => exists f, f ∈ fields ∧ f.1 ∉ redactKeys ∧ Holds redactKeys f.2
  | v => Holds redactKeys v

theorem desensitization_isEmpty (args : Args) : (desensitization args).isEmpty = args.isEmpty := by
  cases args with
  | nil => rfl
  | cons p args => rfl

theorem desensitization_set (args : Args) (k : Text) (v : Json) :
    desensitization (args.set k v) =
      (desensitization args).set k (if k ∈ redactKeys then .str "[REDACTED]".toList else v) := by
  induction args with
  | nil => rfl
  | cons p args ih =>
      rcases p with ⟨key, value⟩
      rw [Dict.set]
      split
      · rename_i hkey
        subst hkey
        simp only [desensitization, List.map_cons, Dict.set, if_true]
      · rename_i hkey
        have hmap : desensitization ((key, value) :: Dict.set args k v) =
            (key, if key ∈ redactKeys then .str "[REDACTED]".toList else value) ::
              desensitization (Dict.set args k v) := rfl
        rw [hmap, ih]
        simp only [desensitization, List.map_cons, Dict.set, if_neg hkey]

theorem desensitization_ofPairs (pairs : List (Text × Json)) :
    desensitization (Dict.ofPairs pairs) = Dict.ofPairs (desensitization pairs) := by
  have hfold : forall args : Args,
      desensitization (pairs.foldl (fun d p => Dict.set d p.1 p.2) args) =
        (desensitization pairs).foldl (fun d p => Dict.set d p.1 p.2)
          (desensitization args) := by
    induction pairs with
    | nil => exact fun _ => rfl
    | cons p pairs ih =>
        intro args
        rw [List.foldl_cons, ih, desensitization_set]
        rfl
  exact hfold []

theorem desensitization_map {V : Type} (f : V -> Json) {ps qs : List (Text × V)}
    (h : maskPairs ps = maskPairs qs) :
    desensitization (ps.map fun p => (p.1, f p.2)) =
      desensitization (qs.map fun p => (p.1, f p.2)) := by
  have hmask : forall ps : List (Text × V),
      desensitization (ps.map fun p => (p.1, f p.2)) =
        (maskPairs ps).map fun p => (p.1, (p.2.map f).getD (.str "[REDACTED]".toList)) := by
    intro ps
    simp only [desensitization, maskPairs, List.map_map]
    refine List.map_congr_left fun p _ => ?_
    simp only [Function.comp_apply]
    split
    · rfl
    · rfl
  rw [hmask, hmask, h]

theorem desensitization_dict {V : Type} (f : V -> Json) {ps qs : List (Text × V)}
    (h : maskPairs ps = maskPairs qs) :
    desensitization (Dict.ofPairs (ps.map fun p => (p.1, f p.2))) =
      desensitization (Dict.ofPairs (qs.map fun p => (p.1, f p.2))) := by
  rw [desensitization_ofPairs, desensitization_ofPairs, desensitization_map f h]

theorem queryArgs_congr {r r' : Request} (h : maskPairs r.query = maskPairs r'.query)
    (args : Args) : queryArgs r args = queryArgs r' args := by
  have hparams := desensitization_dict Json.str h
  unfold queryArgs
  dsimp only
  rw [← desensitization_isEmpty, hparams, desensitization_isEmpty]

theorem pathArgs_congr {r r' : Request} (h : maskPairs r.pathParams = maskPairs r'.pathParams)
    (args : Args) : pathArgs r args = pathArgs r' args := by
  have hparams := desensitization_map Json.str h
  have hempty : r.pathParams.isEmpty = r'.pathParams.isEmpty := by
    have hlength := congrArg List.length h
    rw [maskPairs, maskPairs, List.length_map, List.length_map] at hlength
    rw [Bool.eq_iff_iff, List.isEmpty_iff_length_eq_zero, List.isEmpty_iff_length_eq_zero, hlength]
  unfold pathArgs
  rw [hempty, hparams]

section Congruence

variable {env : LogEnv} {r r' : Request}

theorem contentTypes_congr (h : r.contentType = r'.contentType) :
    contentTypes r = contentTypes r' := by
  rw [contentTypes, contentTypes, h]

theorem isMultipart_congr (h : r.contentType = r'.contentType) :
    isMultipart r = isMultipart r' := by
  rw [isMultipart, isMultipart, contentTypes_congr h]

theorem getContentLength_congr (h : r.contentLength = r'.contentLength) :
    getContentLength r = getContentLength r' := by
  rw [getContentLength, getContentLength, h]

theorem skippedSize_congr (h : r.contentType = r'.contentType) (length : Option Int) :
    skippedSize r length = skippedSize r' length := by
  cases length with
  | some n => rfl
  | none => rw [skippedSize, skippedSize, isMultipart_congr h]

def baseArgs (r : Request) : Args :=
  pathArgs r (queryArgs r [])

theorem Alike.baseArgs (h : Alike env r r') : baseArgs r = OperaLog.baseArgs r' := by
  rw [OperaLog.baseArgs, OperaLog.baseArgs, queryArgs_congr h.query, pathArgs_congr h.pathParams]

end Congruence

/-!
# The body

What is redacted of the fields tells nothing when no key is below them.
-/

def loggedBody (env : LogEnv) (r : Request) (style : Style) (v : Json) : Text × Json :=
  if isJson r then
    match v with
    | .obj fields => ("json".toList, .obj (desensitization fields))
    | v => ("data".toList, .str (v.asText env.isPrintable))
  else ("data".toList, .str (v.write style))

section Body

variable {env : LogEnv} {r r' : Request} {style : Style} {v w : Json}

theorem Writes.body_ne_nil (h : Writes env style v) (hw : w.Legible)
    (hmasked : w.masked redactKeys = v.masked redactKeys) :
    (Text.encode (w.write style)).isEmpty = false := by
  cases hbody : Text.encode (w.write style) with
  | nil =>
      have hread := h.reads w hw hmasked
      rw [hbody] at hread
      exact nomatch hread
  | cons b bytes => rfl

theorem Writes.fullArgs (h : Writes env style v) (hw : w.Legible)
    (hmasked : w.masked redactKeys = v.masked redactKeys) (hform : isForm r = false)
    (hbody : r.body = Text.encode (w.write style)) :
    fullArgs env r =
      .ok ((baseArgs r).set (loggedBody env r style w).1 (loggedBody env r style w).2) := by
  have hbodyArgs : bodyArgs env r (baseArgs r) =
      .ok ((baseArgs r).set (loggedBody env r style w).1 (loggedBody env r style w).2) := by
    unfold bodyArgs loggedBody
    rw [hbody, h.body_ne_nil hw hmasked, hform, h.reads w hw hmasked, Text.decodeIgnore_encode]
    cases isJson r with
    | false => rfl
    | true =>
        cases w with
        | obj fields => rfl
        | null | bool _ | int _ | float _ | str _ | arr _ => rfl
  have hformArgs : forall args, formArgs env r args = .ok args := by
    intro args
    rw [formArgs, hform]
    rfl
  show (bodyArgs env r (baseArgs r)).bind (formArgs env r) = _
  rw [hbodyArgs]
  exact hformArgs _

end Body

/-!
# What is logged

Values that are not kept are not told, and values that are cut off neither.
-/

section Logged

variable {env : LogEnv} {r r' : Request}

theorem Alike.getRequestArgs (h : Alike env r r')
    (hread : forall length, getContentLength r = .ok length -> skippedSize r length = none ->
      (fullArgs env r).map (fun args => orNone (truncate args)) =
        (fullArgs env r').map fun args => orNone (truncate args)) :
    getRequestArgs env r = OperaLog.getRequestArgs env r' := by
  have hbase : pathArgs r (queryArgs r []) = pathArgs r' (queryArgs r' []) := h.baseArgs
  unfold OperaLog.getRequestArgs
  rw [← getContentLength_congr h.contentLength]
  cases hlength : getContentLength r with
  | error e => rfl
  | ok length =>
      dsimp only [bind, Except.bind]
      rw [← skippedSize_congr h.contentType, hbase]
      cases hskip : skippedSize r length with
      | some size => rfl
      | none => exact hread length hlength hskip

end Logged

/-!
# The sizes of the arguments

Arguments are as large as their values make them.
-/

section Stamped

variable {f : Json -> Json}

end Stamped

section Kept

variable {env : LogEnv} {r : Request} {style : Style} {v : Json}

end Kept

/-!
# The exact condition

Arguments that are not too large are logged as they are, so the values that are kept can be
told apart.
-/

section Exposed

variable {env : LogEnv} {r : Request}

end Exposed

/-!
# A password in an inner object

An object with a key is read back as `json.dumps` writes it.
-/

def plainEnv : LogEnv where
  isPrintable _ := true
  wide _ := none
  form _ _ := .ok []

end OperaLog
end RagService
