import RagService.Foundation.JsonRoundTrip
import RagService.Foundation.Writers

/-!
# Values under keys

The values that an object has under some keys, at any depth: masking them, writing others in
their place, and what a written text tells of them.
-/

namespace RagService
namespace Json

variable {keys : List Text}

/-!
# Overwriting values

What is written under a key hides no other key.
-/

mutual

def overwrite (keys : List Text) (f : Json -> Json) : Json -> Json
  | null => null
  | bool b => bool b
  | int z => int z
  | float literal => float literal
  | str s => str s
  | arr vs => arr (overwriteItems keys f vs)
  | obj fs => obj (overwriteFields keys f fs)

def overwriteItems (keys : List Text) (f : Json -> Json) : List Json -> List Json
  | [] => []
  | v :: vs => overwrite keys f v :: overwriteItems keys f vs

def overwriteFields (keys : List Text) (f : Json -> Json) :
    List (Text × Json) -> List (Text × Json)
  | [] => []
  | (k, v) :: fs =>
      (k, if k ∈ keys then f v else overwrite keys f v) :: overwriteFields keys f fs

end

def masked (keys : List Text) (v : Json) : Json :=
  overwrite keys (fun _ => null) v

mutual

/-- One of the keys is in the value, at some depth. -/
def Holds (keys : List Text) : Json -> Prop
  | arr vs => ItemsHold keys vs
  | obj fs => FieldsHold keys fs
  | _ => False

def ItemsHold (keys : List Text) : List Json -> Prop
  | [] => False
  | v :: vs => Holds keys v ∨ ItemsHold keys vs

def FieldsHold (keys : List Text) : List (Text × Json) -> Prop
  | [] => False
  | (k, v) :: fs => (k ∈ keys ∨ Holds keys v) ∨ FieldsHold keys fs

end

mutual

theorem overwrite_overwrite (f g : Json -> Json) : forall v : Json,
    overwrite keys f (overwrite keys g v) = overwrite keys (fun v => f (g v)) v
  | null => rfl
  | bool _ => rfl
  | int _ => rfl
  | float _ => rfl
  | str _ => rfl
  | arr vs => congrArg arr (overwriteItems_overwriteItems f g vs)
  | obj fs => congrArg obj (overwriteFields_overwriteFields f g fs)

theorem overwriteItems_overwriteItems (f g : Json -> Json) : forall vs : List Json,
    overwriteItems keys f (overwriteItems keys g vs) = overwriteItems keys (fun v => f (g v)) vs
  | [] => rfl
  | v :: vs =>
      congrArg₂ List.cons (overwrite_overwrite f g v) (overwriteItems_overwriteItems f g vs)

theorem overwriteFields_overwriteFields (f g : Json -> Json) : forall fs : List (Text × Json),
    overwriteFields keys f (overwriteFields keys g fs) =
      overwriteFields keys (fun v => f (g v)) fs
  | [] => rfl
  | (k, v) :: fs => by
      rw [overwriteFields, overwriteFields, overwriteFields, overwriteFields_overwriteFields f g fs]
      split
      · rfl
      · rw [overwrite_overwrite f g v]

end

mutual

theorem overwrite_id : forall v : Json, overwrite keys id v = v
  | null => rfl
  | bool _ => rfl
  | int _ => rfl
  | float _ => rfl
  | str _ => rfl
  | arr vs => congrArg arr (overwriteItems_id vs)
  | obj fs => congrArg obj (overwriteFields_id fs)

theorem overwriteItems_id : forall vs : List Json, overwriteItems keys id vs = vs
  | [] => rfl
  | v :: vs => congrArg₂ List.cons (overwrite_id v) (overwriteItems_id vs)

theorem overwriteFields_id : forall fs : List (Text × Json), overwriteFields keys id fs = fs
  | [] => rfl
  | (k, v) :: fs => by
      rw [overwriteFields, overwrite_id v, overwriteFields_id fs, id, ite_self]

end

mutual

theorem holds_overwrite (f : Json -> Json) : forall v : Json,
    Holds keys (overwrite keys f v) ↔ Holds keys v
  | null => Iff.rfl
  | bool _ => Iff.rfl
  | int _ => Iff.rfl
  | float _ => Iff.rfl
  | str _ => Iff.rfl
  | arr vs => itemsHold_overwriteItems f vs
  | obj fs => fieldsHold_overwriteFields f fs

theorem itemsHold_overwriteItems (f : Json -> Json) : forall vs : List Json,
    ItemsHold keys (overwriteItems keys f vs) ↔ ItemsHold keys vs
  | [] => Iff.rfl
  | v :: vs => or_congr (holds_overwrite f v) (itemsHold_overwriteItems f vs)

theorem fieldsHold_overwriteFields (f : Json -> Json) : forall fs : List (Text × Json),
    FieldsHold keys (overwriteFields keys f fs) ↔ FieldsHold keys fs
  | [] => Iff.rfl
  | (k, v) :: fs => by
      rw [overwriteFields, FieldsHold, FieldsHold, fieldsHold_overwriteFields f fs]
      by_cases hk : k ∈ keys
      · simp only [hk, true_or]
      · simp only [hk, false_or, if_false, holds_overwrite f v]

end

mutual

theorem overwrite_of_not_holds (f : Json -> Json) : forall v : Json,
    ¬ Holds keys v -> overwrite keys f v = v
  | null, _ => rfl
  | bool _, _ => rfl
  | int _, _ => rfl
  | float _, _ => rfl
  | str _, _ => rfl
  | arr vs, h => congrArg arr (overwriteItems_of_not_hold f vs h)
  | obj fs, h => congrArg obj (overwriteFields_of_not_hold f fs h)

theorem overwriteItems_of_not_hold (f : Json -> Json) : forall vs : List Json,
    ¬ ItemsHold keys vs -> overwriteItems keys f vs = vs
  | [], _ => rfl
  | v :: vs, h =>
      congrArg₂ List.cons (overwrite_of_not_holds f v (fun hv => h (.inl hv)))
        (overwriteItems_of_not_hold f vs (fun hvs => h (.inr hvs)))

theorem overwriteFields_of_not_hold (f : Json -> Json) : forall fs : List (Text × Json),
    ¬ FieldsHold keys fs -> overwriteFields keys f fs = fs
  | [], _ => rfl
  | (k, v) :: fs, h => by
      rw [overwriteFields, if_neg (fun hk => h (.inl (.inl hk))),
        overwrite_of_not_holds f v (fun hv => h (.inl (.inr hv))),
        overwriteFields_of_not_hold f fs (fun hfs => h (.inr hfs))]

end

theorem keys_overwriteFields (f : Json -> Json) (fs : List (Text × Json)) :
    (overwriteFields keys f fs).map Prod.fst = fs.map Prod.fst := by
  induction fs with
  | nil => rfl
  | cons p fs ih =>
      rw [overwriteFields, List.map_cons, List.map_cons, ih]

mutual

theorem legible_overwrite {f : Json -> Json} (hf : forall v, (f v).Legible) : forall v : Json,
    v.Legible -> (overwrite keys f v).Legible
  | null, h => h
  | bool _, h => h
  | int _, h => h
  | float _, h => h
  | str _, h => h
  | arr vs, h => legibleItems_overwriteItems hf vs h
  | obj fs, h => by
      refine ⟨?_, legibleFields_overwriteFields hf fs h.2⟩
      rw [keys_overwriteFields]
      exact h.1

theorem legibleItems_overwriteItems {f : Json -> Json} (hf : forall v, (f v).Legible) :
    forall vs : List Json, LegibleItems vs -> LegibleItems (overwriteItems keys f vs)
  | [], h => h
  | v :: vs, h => ⟨legible_overwrite hf v h.1, legibleItems_overwriteItems hf vs h.2⟩

theorem legibleFields_overwriteFields {f : Json -> Json} (hf : forall v, (f v).Legible) :
    forall fs : List (Text × Json), LegibleFields fs -> LegibleFields (overwriteFields keys f fs)
  | [], h => h
  | (k, v) :: fs, h => by
      refine ⟨?_, legibleFields_overwriteFields hf fs h.2⟩
      split
      · exact hf v
      · exact legible_overwrite hf v h.1

end

/-!
# What a text tells

Values of one weight under the keys make texts of one weight, and different values of one
length make different texts.
-/

section Weight

variable {w : Char -> Nat} {style : Style} {f g : Json -> Json}

mutual

theorem weigh_write_overwrite
    (hweight : forall v, v.Legible -> weigh w (write style (f v)) = weigh w (write style (g v))) :
    forall v : Json, v.Legible ->
      weigh w (write style (overwrite keys f v)) = weigh w (write style (overwrite keys g v))
  | null, _ => rfl
  | bool _, _ => rfl
  | int _, _ => rfl
  | float _, _ => rfl
  | str _, _ => rfl
  | arr vs, h => by
      have hitems := weigh_join style.comma (weigh_writeItems hweight vs h)
      simp only [overwrite, write, weigh_cons, weigh_append, List.cons_append, hitems]
  | obj fs, h => by
      have hfields := weigh_join style.comma (weigh_writeFields hweight fs h.2)
      simp only [overwrite, write, weigh_cons, weigh_append, List.cons_append, hfields]

theorem weigh_writeItems
    (hweight : forall v, v.Legible -> weigh w (write style (f v)) = weigh w (write style (g v))) :
    forall vs : List Json, LegibleItems vs ->
      (writeItems style (overwriteItems keys f vs)).map (weigh w) =
        (writeItems style (overwriteItems keys g vs)).map (weigh w)
  | [], _ => rfl
  | v :: vs, h => by
      simp only [overwriteItems, writeItems, List.map_cons, weigh_write_overwrite hweight v h.1,
        weigh_writeItems hweight vs h.2]

theorem weigh_writeFields
    (hweight : forall v, v.Legible -> weigh w (write style (f v)) = weigh w (write style (g v))) :
    forall fs : List (Text × Json), LegibleFields fs ->
      (writeFields style (overwriteFields keys f fs)).map (weigh w) =
        (writeFields style (overwriteFields keys g fs)).map (weigh w)
  | [], _ => rfl
  | (k, v) :: fs, h => by
      simp only [overwriteFields, writeFields, List.map_cons, weigh_append,
        weigh_writeFields hweight fs h.2]
      split
      · rw [hweight v h.1]
      · rw [weigh_write_overwrite hweight v h.1]

end

mutual

theorem write_overwrite_ne
    (hlength : forall v, (write style (f v)).length = (write style (g v)).length)
    (hne : forall v, write style (f v) ≠ write style (g v)) :
    forall v : Json, v.Legible -> Holds keys v ->
      write style (overwrite keys f v) ≠ write style (overwrite keys g v)
  | arr vs, h, hv, heq => by
      have hone : forall v, v.Legible ->
          weigh (fun _ => 1) (write style (f v)) = weigh (fun _ => 1) (write style (g v)) :=
        fun v _ => by rw [weigh_one, weigh_one, hlength v]
      have hitems : (writeItems style (overwriteItems keys f vs)).map List.length =
          (writeItems style (overwriteItems keys g vs)).map List.length :=
        map_length_eq (weigh_writeItems hone vs h)
      simp only [overwrite, write, List.cons_append, List.cons.injEq, true_and,
        List.append_cancel_right_eq] at heq
      exact writeItems_overwriteItems_ne hlength hne vs h hv (join_injective hitems heq)
  | obj fs, h, hv, heq => by
      have hone : forall v, v.Legible ->
          weigh (fun _ => 1) (write style (f v)) = weigh (fun _ => 1) (write style (g v)) :=
        fun v _ => by rw [weigh_one, weigh_one, hlength v]
      have hfields : (writeFields style (overwriteFields keys f fs)).map List.length =
          (writeFields style (overwriteFields keys g fs)).map List.length :=
        map_length_eq (weigh_writeFields hone fs h.2)
      simp only [overwrite, write, List.cons_append, List.cons.injEq, true_and,
        List.append_cancel_right_eq] at heq
      exact writeFields_overwriteFields_ne hlength hne fs h.2 hv (join_injective hfields heq)

theorem writeItems_overwriteItems_ne
    (hlength : forall v, (write style (f v)).length = (write style (g v)).length)
    (hne : forall v, write style (f v) ≠ write style (g v)) :
    forall vs : List Json, LegibleItems vs -> ItemsHold keys vs ->
      writeItems style (overwriteItems keys f vs) ≠ writeItems style (overwriteItems keys g vs)
  | v :: vs, h, hvs, heq => by
      rw [overwriteItems, overwriteItems, writeItems, writeItems, List.cons.injEq] at heq
      rcases hvs with hv | hvs
      · exact write_overwrite_ne hlength hne v h.1 hv heq.1
      · exact writeItems_overwriteItems_ne hlength hne vs h.2 hvs heq.2

theorem writeFields_overwriteFields_ne
    (hlength : forall v, (write style (f v)).length = (write style (g v)).length)
    (hne : forall v, write style (f v) ≠ write style (g v)) :
    forall fs : List (Text × Json), LegibleFields fs -> FieldsHold keys fs ->
      writeFields style (overwriteFields keys f fs) ≠ writeFields style (overwriteFields keys g fs)
  | (k, v) :: fs, h, hfs, heq => by
      rw [overwriteFields, overwriteFields, writeFields, writeFields, List.cons.injEq,
        List.append_cancel_left_eq] at heq
      rcases hfs with hv | hfs
      · have hvalue := heq.1
        split at hvalue
        · exact hne v hvalue
        · rename_i hk
          exact write_overwrite_ne hlength hne v h.1 (hv.resolve_left hk) hvalue
      · exact writeFields_overwriteFields_ne hlength hne fs h.2 hfs heq.2

end

/-!
# Numbers in their place

Numbers that are as heavy as the texts of the values leave the weight of a text as it is; of
two of them at least one gives another text.
-/

def stamp (style : Style) (w : Char -> Nat) (k : Nat) (v : Json) : Json :=
  int ((10 ^ (weigh w (write style v) - 1) + k : Nat) : Int)

end Weight

end Json
end RagService
