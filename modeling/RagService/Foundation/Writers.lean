import RagService.Foundation.Representations

/-!
# Writers of values

The ways in which values are written, `dumps` and `repr` among them, and the weights of the
texts: every character has one, as the number of bytes that it becomes.
-/

namespace RagService
namespace Json

/-!
# Ways of writing

A style says how a writer writes what is no bracket, no integer and no order of items.  A
printer prints in a style when its lists go on as the style has it after the first item.
-/

/-- How a writer writes what is no bracket, no integer and no order of items. -/
structure Style where
  null : Text
  yes : Text
  no : Text
  float : Text -> Text
  text : Text -> Text
  comma : Text
  colon : Text

mutual

def write (style : Style) : Json -> Text
  | null => style.null
  | bool true => style.yes
  | bool false => style.no
  | int z => dumpInt z
  | float literal => style.float literal
  | str s => style.text s
  | arr vs => '[' :: Text.join style.comma (writeItems style vs) ++ [']']
  | obj fs => '{' :: Text.join style.comma (writeFields style fs) ++ ['}']

def writeItems (style : Style) : List Json -> List Text
  | [] => []
  | v :: vs => write style v :: writeItems style vs

def writeFields (style : Style) : List (Text × Json) -> List Text
  | [] => []
  | (k, v) :: fs => (style.text k ++ style.colon ++ write style v) :: writeFields style fs

end

def dumpsStyle (ensureAscii : Bool) : Style where
  null := "null".toList
  yes := "true".toList
  no := "false".toList
  float literal := literal
  text := dumpString ensureAscii
  comma := [',', ' ']
  colon := [':', ' ']

theorem join_cons (sep p : Text) (ps : List Text) :
    Text.join sep (p :: ps) = p ++ ps.flatMap fun q => sep ++ q := by
  induction ps generalizing p with
  | nil => simp [Text.join]
  | cons q qs ih => rw [Text.join, ih, List.flatMap_cons, List.append_assoc, List.append_assoc]

/-- A printer that writes in a style, with what it prints after the first item of a list. -/
structure Prints (style : Style) (print : Json -> Text) (items : List Json -> Text)
    (fields : List (Text × Json) -> Text) : Prop where
  null : print null = style.null
  yes : print (bool true) = style.yes
  no : print (bool false) = style.no
  int (z : Int) : print (int z) = dumpInt z
  float (literal : Text) : print (float literal) = style.float literal
  str (s : Text) : print (str s) = style.text s
  arr_nil : print (arr []) = ['[', ']']
  arr_cons (v : Json) (vs : List Json) : print (arr (v :: vs)) = '[' :: print v ++ items vs
  obj_nil : print (obj []) = ['{', '}']
  obj_cons (k : Text) (v : Json) (fs : List (Text × Json)) :
    print (obj ((k, v) :: fs)) = '{' :: style.text k ++ style.colon ++ print v ++ fields fs
  items_nil : items [] = [']']
  items_cons (v : Json) (vs : List Json) : items (v :: vs) = style.comma ++ print v ++ items vs
  fields_nil : fields [] = ['}']
  fields_cons (k : Text) (v : Json) (fs : List (Text × Json)) :
    fields ((k, v) :: fs) = style.comma ++ style.text k ++ style.colon ++ print v ++ fields fs

namespace Prints

variable {style : Style} {print : Json -> Text} {items : List Json -> Text}
  {fields : List (Text × Json) -> Text}

mutual

theorem eq_write (h : Prints style print items fields) : forall v : Json, print v = write style v
  | .null => h.null
  | .bool true => h.yes
  | .bool false => h.no
  | .int z => h.int z
  | .float literal => h.float literal
  | .str s => h.str s
  | .arr [] => h.arr_nil
  | .arr (v :: vs) => by
      rw [h.arr_cons, h.eq_write v, h.items_eq vs, write, writeItems, join_cons, List.cons_append,
        List.cons_append, List.append_assoc]
  | .obj [] => h.obj_nil
  | .obj ((k, v) :: fs) => by
      rw [h.obj_cons, h.eq_write v, h.fields_eq fs, write, writeFields, join_cons]
      simp only [List.cons_append, List.append_assoc]

theorem items_eq (h : Prints style print items fields) : forall vs : List Json,
    items vs = ((writeItems style vs).flatMap fun q => style.comma ++ q) ++ [']']
  | [] => h.items_nil
  | v :: vs => by
      rw [h.items_cons, h.eq_write v, h.items_eq vs, writeItems, List.flatMap_cons,
        List.append_assoc, List.append_assoc, List.append_assoc]

theorem fields_eq (h : Prints style print items fields) : forall fs : List (Text × Json),
    fields fs = ((writeFields style fs).flatMap fun q => style.comma ++ q) ++ ['}']
  | [] => h.fields_nil
  | (k, v) :: fs => by
      rw [h.fields_cons, h.eq_write v, h.fields_eq fs, writeFields, List.flatMap_cons]
      simp only [List.append_assoc]

end

end Prints

def weigh (w : Char -> Nat) (s : Text) : Nat :=
  (s.map w).sum

section Weight

variable {w : Char -> Nat}

@[simp] theorem weigh_cons (c : Char) (s : Text) : weigh w (c :: s) = w c + weigh w s := by
  simp [weigh]

@[simp] theorem weigh_append (s t : Text) : weigh w (s ++ t) = weigh w s + weigh w t := by
  simp [weigh]

theorem weigh_one (s : Text) : weigh (fun _ => 1) s = s.length := by
  induction s with
  | nil => rfl
  | cons c s ih => rw [weigh_cons, ih, List.length_cons, Nat.add_comm]

theorem weigh_pieces {sep : Text} {ps qs : List Text} (h : ps.map (weigh w) = qs.map (weigh w)) :
    weigh w (ps.flatMap fun p => sep ++ p) = weigh w (qs.flatMap fun p => sep ++ p) := by
  induction ps generalizing qs with
  | nil =>
      cases qs with
      | nil => rfl
      | cons q qs => cases h
  | cons p ps ih =>
      cases qs with
      | nil => cases h
      | cons q qs =>
          rw [List.map_cons, List.map_cons, List.cons.injEq] at h
          simp only [List.flatMap_cons, weigh_append, h.1, ih h.2]

theorem weigh_join (sep : Text) {ps qs : List Text} (h : ps.map (weigh w) = qs.map (weigh w)) :
    weigh w (Text.join sep ps) = weigh w (Text.join sep qs) := by
  cases ps with
  | nil =>
      cases qs with
      | nil => rfl
      | cons q qs => cases h
  | cons p ps =>
      cases qs with
      | nil => cases h
      | cons q qs =>
          rw [List.map_cons, List.map_cons, List.cons.injEq] at h
          rw [join_cons, join_cons, weigh_append, weigh_append, h.1, weigh_pieces h.2]

theorem pieces_injective {sep : Text} {ps qs : List Text}
    (hlength : ps.map List.length = qs.map List.length)
    (h : (ps.flatMap fun p => sep ++ p) = qs.flatMap fun p => sep ++ p) : ps = qs := by
  induction ps generalizing qs with
  | nil =>
      cases qs with
      | nil => rfl
      | cons q qs => cases hlength
  | cons p ps ih =>
      cases qs with
      | nil => cases hlength
      | cons q qs =>
          rw [List.map_cons, List.map_cons, List.cons.injEq] at hlength
          rw [List.flatMap_cons, List.flatMap_cons, List.append_assoc, List.append_assoc,
            List.append_cancel_left_eq] at h
          rcases List.append_inj h hlength.1 with ⟨hhead, htail⟩
          rw [hhead, ih hlength.2 htail]

/-- Parts of the same lengths can be told apart when they are joined. -/
theorem join_injective {sep : Text} {ps qs : List Text}
    (hlength : ps.map List.length = qs.map List.length)
    (h : Text.join sep ps = Text.join sep qs) : ps = qs := by
  cases ps with
  | nil =>
      cases qs with
      | nil => rfl
      | cons q qs => cases hlength
  | cons p ps =>
      cases qs with
      | nil => cases hlength
      | cons q qs =>
          rw [List.map_cons, List.map_cons, List.cons.injEq] at hlength
          rw [join_cons, join_cons] at h
          rcases List.append_inj h hlength.1 with ⟨hhead, htail⟩
          rw [hhead, pieces_injective hlength.2 htail]

theorem map_length_eq {ps qs : List Text}
    (h : ps.map (weigh fun _ => 1) = qs.map (weigh fun _ => 1)) :
    ps.map List.length = qs.map List.length := by
  simpa only [funext weigh_one] using h

end Weight

end Json
end RagService
