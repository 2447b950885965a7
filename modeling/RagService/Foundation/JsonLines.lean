import RagService.Foundation.JsonRoundTrip
import RagService.Foundation.Lines

/-!
# Records, one a line

A text with one object on every line, as `json.dumps` writes it without escaping what is no
ASCII.  The breaks that a record can have are those that no escape is made of.
-/

namespace RagService
namespace Json

open Text

/-!
# Breaks in a printed value

The control characters are escaped; the other breaks are printed as they are, where what is no
ASCII is not escaped.
-/

def UnbrokenText (s : Text) : Prop :=
  forall c, c ∈ s -> c.toNat ≠ 0x85 ∧ c.toNat ≠ 0x2028 ∧ c.toNat ≠ 0x2029

instance (s : Text) : Decidable (UnbrokenText s) :=
  List.decidableBAll _ s

def OneLine (s : Text) : Prop :=
  forall c, c ∈ s -> isLineBreak c = false

instance (s : Text) : Decidable (OneLine s) :=
  List.decidableBAll _ s

theorem oneLine_append {s t : Text} : OneLine (s ++ t) ↔ OneLine s ∧ OneLine t :=
  List.forall_mem_append

theorem oneLine_cons {c : Char} {s : Text} :
    OneLine (c :: s) ↔ isLineBreak c = false ∧ OneLine s :=
  List.forall_mem_cons

theorem oneLine_nil : OneLine [] :=
  List.forall_mem_nil _

theorem oneLine_escape (c : Char) :
    OneLine (escape false c) ↔ c.toNat ≠ 0x85 ∧ c.toNat ≠ 0x2028 ∧ c.toNat ≠ 0x2029 := by
  rcases eq_or_ne c '"' with rfl | hquote
  · decide
  rcases eq_or_ne c '\\' with rfl | hbackslash
  · decide
  by_cases hcontrol : c.toNat < 32
  · have hcontrols : forall n, n < 32 -> OneLine (escape false (Char.ofNat n)) := by decide
    refine iff_of_true ?_ (by omega)
    rw [← Char.ofNat_toNat c]
    exact hcontrols c.toNat hcontrol
  · rw [escape_visible hquote hbackslash hcontrol, oneLine_cons]
    constructor
    · intro h
      rcases h with ⟨hbreak, -⟩
      rw [← Bool.not_eq_true, isLineBreak_iff] at hbreak
      omega
    · intro hunbroken
      refine ⟨?_, oneLine_nil⟩
      rw [← Bool.not_eq_true, isLineBreak_iff]
      omega

theorem oneLine_dumpString (s : Text) : OneLine (dumpString false s) ↔ UnbrokenText s := by
  have hquote : OneLine ['"'] := by decide
  have hchars : OneLine (s.flatMap (escape false)) ↔ UnbrokenText s := by
    induction s with
    | nil => exact ⟨fun _ _ h => (List.not_mem_nil h).elim, fun _ => oneLine_nil⟩
    | cons c rest ih =>
        rw [List.flatMap_cons, oneLine_append, oneLine_escape, ih, UnbrokenText, UnbrokenText,
          List.forall_mem_cons]
  rw [dumpString, List.cons_append, oneLine_cons, oneLine_append, hchars]
  exact ⟨fun h => h.2.1, fun h => ⟨by decide, h, hquote⟩⟩

theorem isLineBreak_of_isDigit {c : Char} (h : c.isDigit = true) : isLineBreak c = false :=
  isLineBreak_of_not_isSpace (isSpace_of_isDigit h)

theorem oneLine_dumpInt (z : Int) : OneLine (dumpInt z) := by
  have hdecimal : OneLine (decimal z.natAbs) := by
    intro c hc
    exact isLineBreak_of_isDigit (isDigit_of_mem_decimal hc)
  unfold dumpInt
  split
  · exact oneLine_cons.mpr ⟨by decide, hdecimal⟩
  · exact hdecimal

mutual

def Unbroken : Json -> Prop
  | float literal => OneLine literal
  | str s => UnbrokenText s
  | arr vs => UnbrokenItems vs
  | obj fs => UnbrokenFields fs
  | _ => True

def UnbrokenItems : List Json -> Prop
  | [] => True
  | v :: vs => Unbroken v ∧ UnbrokenItems vs

def UnbrokenFields : List (Text × Json) -> Prop
  | [] => True
  | (k, v) :: fs => UnbrokenText k ∧ Unbroken v ∧ UnbrokenFields fs

end

theorem oneLine_comma : OneLine [',', ' '] := by
  decide

theorem oneLine_colon : OneLine [':', ' '] := by
  decide

mutual

theorem oneLine_dumps : forall v : Json, OneLine (dumps false v) ↔ v.Unbroken
  | null => iff_true_intro (by decide)
  | bool true => iff_true_intro (by decide)
  | bool false => iff_true_intro (by decide)
  | int z => iff_true_intro (oneLine_dumpInt z)
  | float _ => Iff.rfl
  | str s => oneLine_dumpString s
  | arr [] => iff_true_intro (by decide)
  | arr (v :: vs) => by
      rw [dumps, oneLine_append, oneLine_cons, oneLine_dumps v, oneLine_dumpItems vs]
      exact and_congr_left fun _ => and_iff_right (by decide)
  | obj [] => iff_true_intro (by decide)
  | obj ((k, v) :: fs) => by
      rw [dumps, oneLine_append, oneLine_append, oneLine_append, oneLine_cons, oneLine_dumpString,
        oneLine_dumps v, oneLine_dumpFields fs]
      constructor
      · intro h
        rcases h with ⟨⟨⟨⟨-, hk⟩, -⟩, hv⟩, hfs⟩
        exact ⟨hk, hv, hfs⟩
      · intro h
        rcases h with ⟨hk, hv, hfs⟩
        exact ⟨⟨⟨⟨by decide, hk⟩, oneLine_colon⟩, hv⟩, hfs⟩

theorem oneLine_dumpItems : forall vs : List Json,
    OneLine (dumpItems false vs) ↔ UnbrokenItems vs
  | [] => iff_true_intro (by decide)
  | v :: vs => by
      rw [dumpItems, oneLine_append, oneLine_append, oneLine_dumps v, oneLine_dumpItems vs]
      constructor
      · intro h
        rcases h with ⟨⟨-, hv⟩, hvs⟩
        exact ⟨hv, hvs⟩
      · intro h
        rcases h with ⟨hv, hvs⟩
        exact ⟨⟨oneLine_comma, hv⟩, hvs⟩

theorem oneLine_dumpFields : forall fs : List (Text × Json),
    OneLine (dumpFields false fs) ↔ UnbrokenFields fs
  | [] => iff_true_intro (by decide)
  | (k, v) :: fs => by
      rw [dumpFields, oneLine_append, oneLine_append, oneLine_append, oneLine_append,
        oneLine_dumpString, oneLine_dumps v, oneLine_dumpFields fs]
      constructor
      · intro h
        rcases h with ⟨⟨⟨⟨-, hk⟩, -⟩, hv⟩, hfs⟩
        exact ⟨hk, hv, hfs⟩
      · intro h
        rcases h with ⟨hk, hv, hfs⟩
        exact ⟨⟨⟨⟨oneLine_comma, hk⟩, oneLine_colon⟩, hv⟩, hfs⟩

end

/-!
# The lines of the records

An object begins and ends with a brace, so it is no blank line.  A break in a record makes at
least two lines of it, and there are as many lines as records when none of them has a break.
-/

theorem dumps_obj (fields : List (Text × Json)) :
    exists s, dumps false (obj fields) = '{' :: s ++ ['}'] := by
  have hfields : forall fs : List (Text × Json), exists s, dumpFields false fs = s ++ ['}'] := by
    intro fs
    induction fs with
    | nil => exact ⟨[], rfl⟩
    | cons f rest ih =>
        rcases f with ⟨k, v⟩
        rcases ih with ⟨s, hs⟩
        rw [dumpFields, hs]
        exact ⟨_, (List.append_assoc _ s _).symm⟩
  cases fields with
  | nil => exact ⟨[], rfl⟩
  | cons f rest =>
      rcases f with ⟨k, v⟩
      rcases hfields rest with ⟨s, hs⟩
      rw [dumps, hs]
      exact ⟨_, (List.append_assoc _ s _).symm⟩

def dumpLines (records : List (List (Text × Json))) : Text :=
  (records.map fun fields => dumps false (obj fields) ++ ['\n']).flatten

theorem strip_braced (s t : Text) : strip ('{' :: s ++ t) ≠ [] :=
  strip_ne_nil_iff.mpr ⟨'{', List.mem_append_left _ List.mem_cons_self, by decide⟩

theorem visibleLines_dumpLines (records : List (List (Text × Json))) :
    visibleLines (dumpLines records) =
      records.flatMap fun fields => visibleLines (dumps false (obj fields)) := by
  induction records with
  | nil => rfl
  | cons fields rest ih =>
      rw [dumpLines, List.map_cons, List.flatten_cons, List.append_assoc, List.singleton_append,
        ← dumpLines, visibleLines_break _ _ (by decide), ih, List.flatMap_cons]

theorem visibleLines_record {fields : List (Text × Json)} (h : (obj fields).Unbroken) :
    visibleLines (dumps false (obj fields)) = [dumps false (obj fields)] := by
  rcases dumps_obj fields with ⟨s, hs⟩
  apply visibleLines_unbroken
  · rw [hs]
    exact strip_braced s _
  · exact (oneLine_dumps (obj fields)).mpr h

theorem two_le_length_visibleLines {fields : List (Text × Json)} (h : ¬ (obj fields).Unbroken) :
    2 ≤ (visibleLines (dumps false (obj fields))).length := by
  rcases dumps_obj fields with ⟨s, hs⟩
  rw [← oneLine_dumps, hs] at h
  have hbreak : exists c, c ∈ s ∧ isLineBreak c = true := by
    by_contra hnone
    apply h
    have hline : OneLine s := by
      intro c hc
      rw [← Bool.not_eq_true]
      exact fun hc' => hnone ⟨c, hc, hc'⟩
    rw [List.cons_append, oneLine_cons, oneLine_append, oneLine_cons]
    exact ⟨by decide, hline, by decide, oneLine_nil⟩
  rcases hbreak with ⟨c, hc, hbreak⟩
  rcases List.append_of_mem hc with ⟨front, back, rfl⟩
  have hparts : '{' :: (front ++ c :: back) ++ ['}'] = ('{' :: front) ++ c :: (back ++ ['}']) := by
    simp
  have hfront : visibleLines ('{' :: front) ≠ [] :=
    visibleLines_ne_nil (by simpa using strip_braced front [])
  have hback : visibleLines (back ++ ['}']) ≠ [] := by
    apply visibleLines_ne_nil
    exact strip_ne_nil_iff.mpr ⟨'}', List.mem_append_right _ List.mem_cons_self, by decide⟩
  rw [hs, hparts, visibleLines_break _ _ hbreak, List.length_append]
  have h₁ := List.length_pos_iff.mpr hfront
  have h₂ := List.length_pos_iff.mpr hback
  omega

theorem length_visibleLines_record (fields : List (Text × Json)) :
    1 ≤ (visibleLines (dumps false (obj fields))).length ∧
      ((visibleLines (dumps false (obj fields))).length = 1 ↔ (obj fields).Unbroken) := by
  by_cases h : (obj fields).Unbroken
  · rw [visibleLines_record h, List.length_singleton]
    exact ⟨le_rfl, iff_of_true rfl h⟩
  · have htwo := two_le_length_visibleLines h
    exact ⟨by omega, iff_of_false (by omega) h⟩

theorem length_le_visibleLines (records : List (List (Text × Json))) :
    records.length ≤ (visibleLines (dumpLines records)).length := by
  rw [visibleLines_dumpLines]
  induction records with
  | nil => exact le_rfl
  | cons fields rest ih =>
      have hone := (length_visibleLines_record fields).1
      rw [List.flatMap_cons, List.length_append, List.length_cons]
      omega

theorem length_visibleLines_dumpLines (records : List (List (Text × Json))) :
    (visibleLines (dumpLines records)).length = records.length ↔
      forall fields, fields ∈ records -> (obj fields).Unbroken := by
  induction records with
  | nil => exact iff_of_true rfl (List.forall_mem_nil _)
  | cons fields rest ih =>
      have hone := length_visibleLines_record fields
      have hrest := length_le_visibleLines rest
      rw [visibleLines_dumpLines] at ih hrest
      rw [visibleLines_dumpLines, List.flatMap_cons, List.length_append, List.length_cons,
        List.forall_mem_cons, ← hone.2, ← ih]
      omega

theorem visibleLines_dumpLines_unbroken {records : List (List (Text × Json))}
    (h : forall fields, fields ∈ records -> (obj fields).Unbroken) :
    visibleLines (dumpLines records) = records.map fun fields => dumps false (obj fields) := by
  induction records with
  | nil => rfl
  | cons fields rest ih =>
      rw [List.forall_mem_cons] at h
      rw [visibleLines_dumpLines] at ih ⊢
      rw [List.flatMap_cons, visibleLines_record h.1, ih h.2, List.map_cons, List.singleton_append]

end Json
end RagService
