import RagService.Foundation.Json

/-!
# Printed values read back

`loads` inverts `dumps`, with either setting of `ensure_ascii`, on every value whose floats
are read back and whose objects have distinct keys.
-/

namespace RagService
namespace Json

/-!
# Characters of a string

Other than quotes, backslashes and control characters, a character stands for itself or for its
code units; one outside the basic plane is written as two surrogates.  Each written character
is read back, and none begins with the closing quote.
-/

theorem hexValue_hexDigit_lt : forall n, n < 16 -> hexValue (hexDigit n) = some n := by
  decide

theorem hexValue_hexDigit (n : Nat) : hexValue (hexDigit n) = some (n % 16) := by
  have hmod : hexDigit n = hexDigit (n % 16) := by
    simp [hexDigit]
  rw [hmod]
  exact hexValue_hexDigit_lt (n % 16) (Nat.mod_lt n (by decide))

theorem readUnicode_escape {n : Nat} (h : n < 65536) (rest : Text) :
    readUnicode (hexDigit (n / 4096) :: hexDigit (n / 256) :: hexDigit (n / 16) ::
      hexDigit n :: rest) = some (n, rest) := by
  simp only [readUnicode, hexValue_hexDigit, Option.bind_eq_bind, Option.bind_some,
    Option.some.injEq, Prod.mk.injEq, and_true]
  omega

theorem charOf_toNat (c : Char) : charOf c.toNat = some c := by
  have hvalid : c.toNat.isValidChar := c.valid
  simp [charOf, hvalid]

theorem toNat_not_surrogate (c : Char) : c.toNat < 0xd800 ∨ 0xdfff < c.toNat := by
  rcases c.valid with h | h
  · exact .inl h
  · exact .inr h.1

theorem readEscapedUnicode_basic {c : Char} (h : c.toNat < 0x10000) (rest : Text) :
    readEscapedUnicode (hexDigit (c.toNat / 4096) :: hexDigit (c.toNat / 256) ::
      hexDigit (c.toNat / 16) :: hexDigit c.toNat :: rest) = some (c, rest) := by
  have hsurrogate : ¬(0xd800 ≤ c.toNat ∧ c.toNat < 0xdc00) := by
    rcases toNat_not_surrogate c with h | h <;> omega
  simp only [readEscapedUnicode, readUnicode_escape h, Option.bind_eq_bind, Option.bind_some,
    if_neg hsurrogate, charOf_toNat, Option.map_some]

theorem readEscapedUnicode_surrogates {c : Char} {hi lo : Nat}
    (hhi : 0xd800 ≤ hi ∧ hi < 0xdc00) (hlo : 0xdc00 ≤ lo ∧ lo < 0xe000)
    (hvalue : 0x10000 + (hi - 0xd800) * 1024 + (lo - 0xdc00) = c.toNat) (rest : Text) :
    readEscapedUnicode
      (hexDigit (hi / 4096) :: hexDigit (hi / 256) :: hexDigit (hi / 16) :: hexDigit hi ::
        (unicodeEscape lo ++ rest)) = some (c, rest) := by
  have hhi' : hi < 65536 := by omega
  have hlo' : lo < 65536 := by omega
  simp only [unicodeEscape, List.cons_append, List.nil_append, readEscapedUnicode,
    readUnicode_escape hhi', readUnicode_escape hlo', Option.bind_eq_bind, Option.bind_some,
    if_pos hhi, if_pos hlo, hvalue, charOf_toNat, Option.map_some]

theorem readChar_pair {c : Char} (h : 0x10000 ≤ c.toNat) (rest : Text) {hi lo : Nat}
    (hhi : hi = 0xd800 + (c.toNat - 0x10000) / 1024)
    (hlo : lo = 0xdc00 + (c.toNat - 0x10000) % 1024) :
    readChar (unicodeEscape hi ++ unicodeEscape lo ++ rest) = some (c, rest) := by
  have hbound := Text.toNat_lt c
  have hhigh : 0xd800 ≤ hi ∧ hi < 0xdc00 := by omega
  have hlow : 0xdc00 ≤ lo ∧ lo < 0xe000 := by omega
  have hvalue : 0x10000 + (hi - 0xd800) * 1024 + (lo - 0xdc00) = c.toNat := by omega
  have hread := readEscapedUnicode_surrogates hhigh hlow hvalue rest
  rw [List.append_assoc, unicodeEscape]
  simpa only [List.cons_append, List.nil_append, readChar, if_true] using hread

inductive Escaped (c : Char) : Text -> Prop where
  | short {e : Char} (hread : forall rest, readChar ('\\' :: e :: rest) = some (c, rest)) :
      Escaped c ['\\', e]
  | basic (h : c.toNat < 0x10000) : Escaped c (unicodeEscape c.toNat)
  | pair (h : 0x10000 ≤ c.toNat) :
      Escaped c (unicodeEscape (0xd800 + (c.toNat - 0x10000) / 1024) ++
        unicodeEscape (0xdc00 + (c.toNat - 0x10000) % 1024))
  | self (hquote : c ≠ '"') (hbackslash : c ≠ '\\') (hcontrol : ¬ c.toNat < 32) : Escaped c [c]

theorem escape_visible {c : Char} (hquote : c ≠ '"') (hbackslash : c ≠ '\\')
    (hcontrol : ¬ c.toNat < 32) : escape false c = [c] := by
  have hne : forall d : Char, d.toNat < 32 -> c ≠ d := by
    intro d hd heq
    subst heq
    exact hcontrol hd
  rw [escape, if_neg hquote, if_neg hbackslash, if_neg (hne _ (by decide)),
    if_neg (hne _ (by decide)), if_neg (hne _ (by decide)), if_neg (hne _ (by decide)),
    if_neg (hne _ (by decide)), if_neg hcontrol]
  rfl

theorem escaped_escape (ensureAscii : Bool) (c : Char) : Escaped c (escape ensureAscii c) := by
  rcases eq_or_ne c '"' with rfl | hquote
  · exact .short fun _ => rfl
  rcases eq_or_ne c '\\' with rfl | hbackslash
  · exact .short fun _ => rfl
  rcases eq_or_ne c '\n' with rfl | hnewline
  · exact .short fun _ => rfl
  rcases eq_or_ne c '\r' with rfl | hreturn
  · exact .short fun _ => rfl
  rcases eq_or_ne c '\t' with rfl | htab
  · exact .short fun _ => rfl
  rcases eq_or_ne c (Char.ofNat 12) with rfl | hfeed
  · exact .short fun _ => rfl
  rcases eq_or_ne c (Char.ofNat 8) with rfl | hback
  · exact .short fun _ => rfl
  rw [escape, if_neg hquote, if_neg hbackslash, if_neg hnewline, if_neg hreturn, if_neg htab,
    if_neg hfeed, if_neg hback]
  split
  · rename_i hcontrol
    exact .basic (Nat.lt_trans hcontrol (by decide))
  rename_i hcontrol
  split
  · split
    · rename_i hbasic
      exact .basic hbasic
    · rename_i hbasic
      exact .pair (Nat.le_of_not_lt hbasic)
  · exact .self hquote hbackslash hcontrol

theorem Escaped.readChar {c : Char} {s : Text} (h : Escaped c s) (rest : Text) :
    readChar (s ++ rest) = some (c, rest) := by
  cases h with
  | short hread => exact hread rest
  | basic h => exact readEscapedUnicode_basic h rest
  | pair h => exact readChar_pair h rest rfl rfl
  | self hquote hbackslash hcontrol =>
      rw [List.cons_append, List.nil_append]
      unfold Json.readChar
      split
      · rename_i heq
        cases heq
        exact absurd rfl hbackslash
      · rename_i c' rest' _ heq
        cases heq
        simp [hbackslash, hcontrol]
      · rename_i heq
        cases heq

theorem Escaped.head {c : Char} {s : Text} (h : Escaped c s) :
    exists d ds, s = d :: ds ∧ d ≠ '"' := by
  cases h with
  | short hread => exact ⟨_, _, rfl, by decide⟩
  | basic h => exact ⟨_, _, rfl, by decide⟩
  | pair h => exact ⟨_, _, rfl, by decide⟩
  | self hquote hbackslash hcontrol => exact ⟨_, _, rfl, hquote⟩

theorem readString_dump (ensureAscii : Bool) (rest : Text) :
    forall (s : Text) (n : Nat), s.length < n ->
      readString n (s.flatMap (escape ensureAscii) ++ '"' :: rest) = some (s, rest)
  | [], n + 1, _ => by
      simp [readString]
  | c :: cs, n + 1, h => by
      have ih := readString_dump ensureAscii rest cs n (Nat.lt_of_succ_lt_succ h)
      have hescaped := escaped_escape ensureAscii c
      rcases hescaped.head with ⟨d, ds, hescape, hd⟩
      have hread := hescaped.readChar (cs.flatMap (escape ensureAscii) ++ '"' :: rest)
      rw [List.flatMap_cons, List.append_assoc]
      rw [hescape] at hread ⊢
      rw [List.cons_append] at hread ⊢
      unfold readString
      split
      · rename_i heq
        cases heq
        exact absurd rfl hd
      · simp only [hread, ih, Option.bind_eq_bind, Option.bind_some]

theorem length_le_flatMap_escape (ensureAscii : Bool) :
    forall s : Text, s.length ≤ (s.flatMap (escape ensureAscii)).length
  | [] => Nat.le_refl _
  | c :: cs => by
      have ih := length_le_flatMap_escape ensureAscii cs
      rcases (escaped_escape ensureAscii c).head with ⟨d, ds, hescape, -⟩
      rw [List.flatMap_cons, hescape]
      simp only [List.length_cons, List.length_append]
      omega

theorem readString_quoted (ensureAscii : Bool) (s rest : Text) :
    readString ((s.flatMap (escape ensureAscii) ++ '"' :: rest).length + 1)
      (s.flatMap (escape ensureAscii) ++ '"' :: rest) = some (s, rest) := by
  apply readString_dump
  have hlength := length_le_flatMap_escape ensureAscii s
  simp only [List.length_append]
  omega

/-!
# Numbers

A printed number is read to its end when what follows continues no number.  Only zero is
printed with a leading zero.
-/

def Stops (rest : Text) : Prop :=
  forall c cs, rest = c :: cs -> c.isDigit = false ∧ c ≠ '.' ∧ c ≠ 'e' ∧ c ≠ 'E'

theorem stops_nil : Stops [] := by
  intro c cs h
  cases h

theorem stops_cons {c : Char} {cs : Text}
    (h : c.isDigit = false ∧ c ≠ '.' ∧ c ≠ 'e' ∧ c ≠ 'E') : Stops (c :: cs) := by
  intro d ds heq
  cases heq
  exact h

def NoDigit (rest : Text) : Prop :=
  forall c cs, rest = c :: cs -> c.isDigit = false

theorem Stops.noDigit {rest : Text} (h : Stops rest) : NoDigit rest :=
  fun c cs heq => (h c cs heq).1

theorem takeWhile_digits {ds rest : Text} (hds : forall c, c ∈ ds -> c.isDigit = true)
    (hrest : NoDigit rest) : (ds ++ rest).takeWhile Char.isDigit = ds := by
  rw [List.takeWhile_append_of_pos hds]
  cases rest with
  | nil => simp
  | cons c cs => simp [hrest c cs rfl]

theorem decimal_ne_nil (n : Nat) : Text.decimal n ≠ [] :=
  Nat.toDigits_ne_nil

theorem decimal_head_zero (n : Nat) {cs : Text} (h : Text.decimal n = '0' :: cs) :
    n = 0 ∧ cs = [] := by
  induction n using Nat.strongRecOn generalizing cs with
  | ind n ih =>
      by_cases hn : n < 10
      · rw [Text.decimal, Nat.toDigits_of_lt_base hn] at h
        have hhead := (List.cons.inj h).1
        refine ⟨?_, (List.cons.inj h).2.symm⟩
        have hdigits : forall m, m < 10 -> Nat.digitChar m = '0' -> m = 0 := by decide
        exact hdigits n hn hhead
      · have hn' : 10 ≤ n := Nat.le_of_not_lt hn
        rw [Text.decimal, Nat.toDigits_of_base_le (by decide) hn'] at h
        cases hdiv : Nat.toDigits 10 (n / 10) with
        | nil => exact absurd hdiv Nat.toDigits_ne_nil
        | cons d ds =>
            rw [hdiv, List.cons_append] at h
            have hd := (List.cons.inj h).1
            subst hd
            have hzero := (ih (n / 10) (by omega) hdiv).1
            omega

theorem integerPart_decimal (n : Nat) {rest : Text} (hrest : NoDigit rest) :
    integerPart (Text.decimal n ++ rest) = Text.decimal n := by
  have hdigits : forall c, c ∈ Text.decimal n -> c.isDigit = true :=
    fun _ h => Text.isDigit_of_mem_decimal h
  cases hdec : Text.decimal n with
  | nil => exact absurd hdec (decimal_ne_nil n)
  | cons d ds =>
      unfold integerPart
      split
      · rename_i heq
        have hd : d = '0' := by
          simpa using congrArg List.head? heq
        subst hd
        rw [(decimal_head_zero n hdec).2]
      · rw [← hdec]
        exact takeWhile_digits hdigits hrest

theorem fraction_stops {rest : Text} (h : Stops rest) : fraction rest = [] := by
  unfold fraction
  split
  · exact absurd rfl (h _ _ rfl).2.1
  · rfl

theorem exponent_stops {rest : Text} (h : Stops rest) : exponent rest = [] := by
  cases rest with
  | nil => rfl
  | cons c cs =>
      rcases h c cs rfl with ⟨-, -, he, hE⟩
      simp [exponent, he, hE]

theorem decimal_head (n : Nat) : exists d ds, Text.decimal n = d :: ds ∧ d.isDigit = true := by
  cases hdec : Text.decimal n with
  | nil => exact absurd hdec (decimal_ne_nil n)
  | cons d ds =>
      exact ⟨d, ds, rfl, Text.isDigit_of_mem_decimal (n := n) (by rw [hdec]; simp)⟩

theorem ofDigitChars_decimal (n : Nat) : Nat.ofDigitChars 10 (Text.decimal n) 0 = n :=
  Nat.ofDigitChars_toDigits (by decide) (by decide)

theorem minusSign_cons {d : Char} (ds : Text) (h : d ≠ '-') : minusSign (d :: ds) = [] := by
  unfold minusSign
  split
  · rename_i heq
    exact absurd (List.cons.inj heq).1 h
  · rfl

theorem readNumber_dumpInt (z : Int) {rest : Text} (hrest : Stops rest) :
    readNumber (dumpInt z ++ rest) = some (int z, rest) := by
  have hpart := integerPart_decimal z.natAbs hrest.noDigit
  have hne := decimal_ne_nil z.natAbs
  rcases decimal_head z.natAbs with ⟨d, ds, hdec, hdigit⟩
  unfold dumpInt
  split
  · rename_i hneg
    have hz : -(z.natAbs : Int) = z := by omega
    simpa [readNumber, minusSign, hpart, hne, fraction_stops hrest, exponent_stops hrest,
      ofDigitChars_decimal] using hz
  · rename_i hneg
    have hz : (z.natAbs : Int) = z := by omega
    have hminus : d ≠ '-' := by
      intro heq
      subst heq
      cases hdigit
    have hsign : minusSign (Text.decimal z.natAbs ++ rest) = [] := by
      rw [hdec, List.cons_append]
      exact minusSign_cons _ hminus
    simpa [readNumber, hsign, hpart, hne, fraction_stops hrest, exponent_stops hrest,
      ofDigitChars_decimal] using hz

theorem readWord_digit {c : Char} {cs : Text} (hc : c.isDigit = true) :
    readWord (c :: cs) = none := by
  have hne : forall d : Char, d.isDigit = false -> d ≠ c := by
    intro d hd heq
    subst heq
    rw [hc] at hd
    cases hd
  simp [readWord, words, dropWord, hne 'n' (by decide), hne 't' (by decide),
    hne 'f' (by decide), hne 'N' (by decide), hne 'I' (by decide), hne '-' (by decide)]

theorem readWord_dumpInt (z : Int) (rest : Text) : readWord (dumpInt z ++ rest) = none := by
  rcases decimal_head z.natAbs with ⟨d, ds, hdec, hd⟩
  unfold dumpInt
  split
  · have hI : 'I' ≠ d := by
      intro heq
      subst heq
      cases hd
    rw [hdec]
    simp [readWord, words, dropWord, hI]
  · rw [hdec, List.cons_append]
    exact readWord_digit hd

/-!
# Values

A value is read back where its floats are and where its objects have distinct keys.
-/

def Opens (c : Char) : Prop :=
  c ≠ ' ' ∧ c ≠ '\t' ∧ c ≠ '\n' ∧ c ≠ '\r' ∧ c ≠ ']' ∧ c ≠ '}'

instance (c : Char) : Decidable (Opens c) :=
  inferInstanceAs (Decidable (_ ∧ _))

theorem opens_of_isDigit {c : Char} (h : c.isDigit = true) : Opens c := by
  refine ⟨?_, ?_, ?_, ?_, ?_, ?_⟩ <;> rintro rfl <;> cases h

mutual

def Plain : Json -> Prop
  | float _ => False
  | arr vs => PlainItems vs
  | obj fs => (fs.map Prod.fst).Nodup ∧ PlainFields fs
  | _ => True

def PlainItems : List Json -> Prop
  | [] => True
  | v :: vs => Plain v ∧ PlainItems vs

def PlainFields : List (Text × Json) -> Prop
  | [] => True
  | (_, v) :: fs => Plain v ∧ PlainFields fs

end

/-- The literal of a float that is read back as it stands. -/
structure Literal (literal : Text) : Prop where
  opens : exists c cs, literal = c :: cs ∧ Opens c
  reads : forall n rest, Stops rest ->
    readValue (n + 1) (literal ++ rest) = some (float literal, rest)

theorem readValue_number (n : Nat) {literal rest : Text} {v : Json}
    (hhead : exists c cs, literal = c :: cs ∧ c.isDigit = true)
    (hnumber : readNumber (literal ++ rest) = some (v, rest)) :
    readValue (n + 1) (literal ++ rest) = some (v, rest) := by
  rcases hhead with ⟨c, cs, rfl, hc⟩
  rw [List.cons_append] at hnumber ⊢
  unfold readValue
  split
  · rename_i heq
    cases (List.cons.inj heq).1
    cases hc
  · rename_i heq
    cases (List.cons.inj heq).1
    cases hc
  · rename_i heq
    cases (List.cons.inj heq).1
    cases hc
  · rw [readWord_digit hc]
    exact hnumber

/-- A decimal number with a fraction is read back. -/
theorem literal_decimal (n : Nat) {ds : Text} (hne : ds ≠ [])
    (hds : forall c, c ∈ ds -> c.isDigit = true) : Literal (Text.decimal n ++ '.' :: ds) := by
  rcases decimal_head n with ⟨d, rest, hdec, hd⟩
  have hminus : d ≠ '-' := by
    intro heq
    subst heq
    cases hd
  constructor
  · exact ⟨d, rest ++ '.' :: ds, by rw [hdec, List.cons_append], opens_of_isDigit hd⟩
  · intro m after hafter
    apply readValue_number
    · exact ⟨d, rest ++ '.' :: ds, by rw [hdec, List.cons_append], hd⟩
    · have hpoint : NoDigit ('.' :: (ds ++ after)) := by
        intro c cs heq
        cases heq
        decide
      have hdigits := integerPart_decimal n hpoint
      have hsign : minusSign (Text.decimal n ++ '.' :: (ds ++ after)) = [] := by
        rw [hdec, List.cons_append]
        exact minusSign_cons _ hminus
      have hfraction : fraction ('.' :: (ds ++ after)) = '.' :: ds := by
        have htake := takeWhile_digits hds hafter.noDigit
        cases ds with
        | nil => exact absurd rfl hne
        | cons e es => simp only [fraction, htake]
      simp [readNumber, hsign, hdigits, decimal_ne_nil, hfraction, exponent_stops hafter]

mutual

/-- A value whose floats are read back, and whose objects have distinct keys. -/
def Legible : Json -> Prop
  | float literal => Literal literal
  | arr vs => LegibleItems vs
  | obj fs => (fs.map Prod.fst).Nodup ∧ LegibleFields fs
  | _ => True

def LegibleItems : List Json -> Prop
  | [] => True
  | v :: vs => Legible v ∧ LegibleItems vs

def LegibleFields : List (Text × Json) -> Prop
  | [] => True
  | (_, v) :: fs => Legible v ∧ LegibleFields fs

end

theorem legibleFields_iff {fs : List (Text × Json)} :
    LegibleFields fs ↔ forall f, f ∈ fs -> f.2.Legible := by
  induction fs with
  | nil => exact iff_of_true trivial (List.forall_mem_nil _)
  | cons f rest ih => rw [LegibleFields, ih, List.forall_mem_cons]

mutual

theorem Plain.legible : forall v : Json, v.Plain -> v.Legible
  | null, _ => trivial
  | bool _, _ => trivial
  | int _, _ => trivial
  | float _, h => h.elim
  | str _, _ => trivial
  | arr vs, h => PlainItems.legible vs h
  | obj fs, h => ⟨h.1, PlainFields.legible fs h.2⟩

theorem PlainItems.legible : forall vs : List Json, PlainItems vs -> LegibleItems vs
  | [], _ => trivial
  | v :: vs, h => ⟨Plain.legible v h.1, PlainItems.legible vs h.2⟩

theorem PlainFields.legible : forall fs : List (Text × Json), PlainFields fs -> LegibleFields fs
  | [], _ => trivial
  | (_, v) :: fs, h => ⟨Plain.legible v h.1, PlainFields.legible fs h.2⟩

end

theorem dumpInt_head (z : Int) : exists c cs, dumpInt z = c :: cs ∧ (c = '-' ∨ c.isDigit = true) := by
  rcases decimal_head z.natAbs with ⟨d, ds, hdec, hd⟩
  unfold dumpInt
  split
  · exact ⟨_, _, rfl, .inl rfl⟩
  · exact ⟨d, ds, hdec, .inr hd⟩

theorem dumps_head (ensureAscii : Bool) (v : Json) (h : v.Legible) :
    exists c cs, dumps ensureAscii v = c :: cs ∧ Opens c := by
  cases v with
  | null => exact ⟨_, _, rfl, by decide⟩
  | bool b => cases b <;> exact ⟨_, _, rfl, by decide⟩
  | int z =>
      rcases dumpInt_head z with ⟨c, cs, heq, hc⟩
      refine ⟨c, cs, heq, ?_⟩
      rcases hc with rfl | hc
      · decide
      · exact opens_of_isDigit hc
  | float literal => exact h.opens
  | str s => exact ⟨_, _, rfl, by decide⟩
  | arr vs =>
      cases vs with
      | nil => exact ⟨_, _, rfl, by decide⟩
      | cons v vs =>
          rw [dumps]
          exact ⟨_, _, rfl, by decide⟩
  | obj fs =>
      cases fs with
      | nil => exact ⟨_, _, rfl, by decide⟩
      | cons f fs =>
          rcases f with ⟨k, v⟩
          rw [dumps]
          exact ⟨_, _, rfl, by decide⟩

theorem skipSpace_opens {c : Char} {cs : Text} (h : Opens c) : skipSpace (c :: cs) = c :: cs := by
  rcases h with ⟨hspace, htab, hnewline, hreturn, -, -⟩
  simp [skipSpace, hspace, htab, hnewline, hreturn]

theorem skipSpace_space (s : Text) : skipSpace (' ' :: s) = skipSpace s := by
  simp [skipSpace]

theorem length_dumps_pos (ensureAscii : Bool) (v : Json) (h : v.Legible) :
    0 < (dumps ensureAscii v).length := by
  rcases dumps_head ensureAscii v h with ⟨c, cs, heq, -⟩
  simp [heq]

/-!
# Objects
-/

theorem setField_new {fields : List (Text × Json)} {k : Text} {v : Json}
    (h : k ∉ fields.map Prod.fst) : setField fields k v = fields ++ [(k, v)] := by
  have hany : fields.any (fun f => f.1 = k) = false := by
    rw [List.any_eq_false]
    intro f hf heq
    rw [decide_eq_true_eq] at heq
    exact h (List.mem_map.mpr ⟨f, hf, heq⟩)
  simp [setField, hany]

theorem foldl_setField (pairs : List (Text × Json)) :
    forall fields : List (Text × Json), ((fields ++ pairs).map Prod.fst).Nodup ->
      pairs.foldl (fun fields p => setField fields p.1 p.2) fields = fields ++ pairs := by
  induction pairs with
  | nil =>
      intro fields _
      simp
  | cons p ps ih =>
      intro fields h
      have hnew : p.1 ∉ fields.map Prod.fst := by
        rw [List.map_append, List.map_cons, List.nodup_append] at h
        intro hmem
        exact h.2.2 p.1 hmem p.1 (List.mem_cons_self) rfl
      rw [List.foldl_cons, setField_new hnew, ih]
      · simp
      · simpa using h

theorem dictOf_nodup {pairs : List (Text × Json)} (h : (pairs.map Prod.fst).Nodup) :
    dictOf pairs = pairs := by
  simpa [dictOf] using foldl_setField pairs [] (by simpa using h)

/-!
# The round trip

Values are read by induction on the value, with the rest of the text in every statement.
-/

def itemsText (ensureAscii : Bool) : List Json -> Text
  | [] => []
  | v :: vs => dumps ensureAscii v ++ dumpItems ensureAscii vs

def fieldsText (ensureAscii : Bool) : List (Text × Json) -> Text
  | [] => []
  | (k, v) :: fs =>
      dumpString ensureAscii k ++ [':', ' '] ++ dumps ensureAscii v ++ dumpFields ensureAscii fs

theorem dumpItems_cons (ensureAscii : Bool) (v : Json) (vs : List Json) :
    dumpItems ensureAscii (v :: vs) = ',' :: ' ' :: itemsText ensureAscii (v :: vs) := by
  simp [dumpItems, itemsText]

theorem dumpFields_cons (ensureAscii : Bool) (f : Text × Json) (fs : List (Text × Json)) :
    dumpFields ensureAscii (f :: fs) = ',' :: ' ' :: fieldsText ensureAscii (f :: fs) := by
  rcases f with ⟨k, v⟩
  simp [dumpFields, fieldsText]

theorem dumpItems_stops (ensureAscii : Bool) (vs : List Json) (rest : Text) :
    Stops (dumpItems ensureAscii vs ++ rest) := by
  cases vs with
  | nil => exact stops_cons (by decide)
  | cons v vs =>
      rw [dumpItems_cons]
      exact stops_cons (by decide)

theorem dumpFields_stops (ensureAscii : Bool) (fs : List (Text × Json)) (rest : Text) :
    Stops (dumpFields ensureAscii fs ++ rest) := by
  cases fs with
  | nil => exact stops_cons (by decide)
  | cons f fs =>
      rw [dumpFields_cons]
      exact stops_cons (by decide)

theorem length_dumpItems_pos (ensureAscii : Bool) (vs : List Json) :
    0 < (dumpItems ensureAscii vs).length := by
  cases vs with
  | nil => simp [dumpItems]
  | cons v vs => simp [dumpItems_cons]

theorem length_dumpFields_pos (ensureAscii : Bool) (fs : List (Text × Json)) :
    0 < (dumpFields ensureAscii fs).length := by
  cases fs with
  | nil => simp [dumpFields]
  | cons f fs => simp [dumpFields_cons]

theorem itemsText_head (ensureAscii : Bool) {vs : List Json} (hne : vs ≠ [])
    (h : LegibleItems vs) : exists c cs, itemsText ensureAscii vs = c :: cs ∧ Opens c := by
  cases vs with
  | nil => exact absurd rfl hne
  | cons v vs =>
      rcases dumps_head ensureAscii v h.1 with ⟨c, cs, heq, hc⟩
      exact ⟨c, cs ++ dumpItems ensureAscii vs, by simp [itemsText, heq], hc⟩

theorem fieldsText_head (ensureAscii : Bool) (fs : List (Text × Json)) (hne : fs ≠ []) :
    exists cs, fieldsText ensureAscii fs = '"' :: cs := by
  cases fs with
  | nil => exact absurd rfl hne
  | cons f fs =>
      rcases f with ⟨k, v⟩
      simp only [fieldsText, dumpString, List.cons_append]
      exact ⟨_, rfl⟩

theorem readValue_word (n : Nat) (w rest : Text) (v : Json)
    (hhead : exists c cs, w = c :: cs ∧ c ≠ '"' ∧ c ≠ '[' ∧ c ≠ '{')
    (hword : readWord (w ++ rest) = some (v, rest)) :
    readValue (n + 1) (w ++ rest) = some (v, rest) := by
  rcases hhead with ⟨c, cs, rfl, hquote, hbracket, hbrace⟩
  rw [List.cons_append] at hword ⊢
  unfold readValue
  split
  · rename_i heq
    exact absurd (List.cons.inj heq).1 hquote
  · rename_i heq
    exact absurd (List.cons.inj heq).1 hbracket
  · rename_i heq
    exact absurd (List.cons.inj heq).1 hbrace
  · rw [hword]

theorem readValue_int (n : Nat) (z : Int) {rest : Text} (hrest : Stops rest) :
    readValue (n + 1) (dumpInt z ++ rest) = some (int z, rest) := by
  have hword := readWord_dumpInt z rest
  have hnumber := readNumber_dumpInt z hrest
  rcases dumpInt_head z with ⟨c, cs, heq, hc⟩
  have hne : c ≠ '"' ∧ c ≠ '[' ∧ c ≠ '{' := by
    rcases hc with rfl | hc
    · decide
    · refine ⟨?_, ?_, ?_⟩ <;> rintro rfl <;> cases hc
  rw [heq, List.cons_append] at hword hnumber ⊢
  unfold readValue
  split
  · rename_i heq
    exact absurd (List.cons.inj heq).1 hne.1
  · rename_i heq
    exact absurd (List.cons.inj heq).1 hne.2.1
  · rename_i heq
    exact absurd (List.cons.inj heq).1 hne.2.2
  · rw [hword]
    exact hnumber

theorem readValue_str (ensureAscii : Bool) (n : Nat) (s rest : Text) :
    readValue (n + 1) (dumpString ensureAscii s ++ rest) = some (str s, rest) := by
  have hread := readString_quoted ensureAscii s rest
  simp only [dumpString, List.cons_append, List.append_assoc, List.nil_append, readValue, hread,
    Option.map_some]

mutual

theorem readValue_dumps (ensureAscii : Bool) : forall (v : Json) (n : Nat) (rest : Text),
    v.Legible -> (dumps ensureAscii v).length ≤ n -> Stops rest ->
      readValue n (dumps ensureAscii v ++ rest) = some (v, rest)
  | v, 0, rest, h, hn, _ => absurd hn (Nat.not_le_of_lt (length_dumps_pos ensureAscii v h))
  | null, n + 1, rest, _, _, _ =>
      readValue_word n _ rest null ⟨_, _, rfl, by decide⟩
        (by simp [dumps, readWord, words, dropWord])
  | bool true, n + 1, rest, _, _, _ =>
      readValue_word n _ rest (bool true) ⟨_, _, rfl, by decide⟩
        (by simp [dumps, readWord, words, dropWord])
  | bool false, n + 1, rest, _, _, _ =>
      readValue_word n _ rest (bool false) ⟨_, _, rfl, by decide⟩
        (by simp [dumps, readWord, words, dropWord])
  | int z, n + 1, rest, _, _, hrest => readValue_int n z hrest
  | float literal, n + 1, rest, h, _, hrest => h.reads n rest hrest
  | str s, n + 1, rest, _, _, _ => readValue_str ensureAscii n s rest
  | arr [], n + 1, rest, _, _, _ => by
      simp [dumps, readValue, skipSpace]
  | arr (v :: vs), n + 1, rest, h, hn, _ => by
      have hlength : (itemsText ensureAscii (v :: vs)).length ≤ n := by
        simp only [dumps, List.cons_append, List.length_cons] at hn
        simp only [itemsText]
        omega
      have hitems := readItems_dumps ensureAscii (v :: vs) n rest (by simp) h hlength
      rcases itemsText_head ensureAscii (by simp) h with ⟨c, cs, heq, hc⟩
      have htext : dumps ensureAscii (arr (v :: vs)) ++ rest =
          '[' :: (itemsText ensureAscii (v :: vs) ++ rest) := by
        simp [dumps, itemsText]
      rw [htext]
      simp only [readValue]
      rw [heq, List.cons_append] at hitems ⊢
      rw [skipSpace_opens hc]
      split
      · rename_i hclose
        exact absurd (List.cons.inj hclose).1 hc.2.2.2.2.1
      · rw [hitems]
        rfl
  | obj [], n + 1, rest, _, _, _ => by
      simp [dumps, readValue, skipSpace]
  | obj ((k, v) :: fs), n + 1, rest, h, hn, _ => by
      have hlength : (fieldsText ensureAscii ((k, v) :: fs)).length ≤ n := by
        simp only [dumps, List.cons_append, List.length_cons] at hn
        simp only [fieldsText]
        omega
      have hfields := readFields_dumps ensureAscii ((k, v) :: fs) n rest (by simp) h.2 hlength
      rcases fieldsText_head ensureAscii ((k, v) :: fs) (by simp) with ⟨cs, heq⟩
      have htext : dumps ensureAscii (obj ((k, v) :: fs)) ++ rest =
          '{' :: (fieldsText ensureAscii ((k, v) :: fs) ++ rest) := by
        simp [dumps, fieldsText]
      rw [htext]
      simp only [readValue]
      rw [heq, List.cons_append] at hfields ⊢
      rw [skipSpace_opens (by decide)]
      simp [hfields, dictOf_nodup h.1]

theorem readItems_dumps (ensureAscii : Bool) : forall (vs : List Json) (n : Nat) (rest : Text),
    vs ≠ [] -> LegibleItems vs -> (itemsText ensureAscii vs).length ≤ n ->
      readItems n (itemsText ensureAscii vs ++ rest) = some (vs, rest)
  | [], n, rest, hne, _, _ => absurd rfl hne
  | v :: vs, 0, rest, _, h, hn => by
      have hpos := length_dumps_pos ensureAscii v h.1
      simp only [itemsText, List.length_append] at hn
      omega
  | v :: vs, n + 1, rest, _, h, hn => by
      have hpos := length_dumpItems_pos ensureAscii vs
      simp only [itemsText, List.length_append] at hn
      have hvalue := readValue_dumps ensureAscii v n (dumpItems ensureAscii vs ++ rest) h.1
        (by omega) (dumpItems_stops ensureAscii vs rest)
      simp only [itemsText, List.append_assoc, readItems, hvalue, Option.bind_eq_bind,
        Option.bind_some]
      cases vs with
      | nil => simp [dumpItems, skipSpace]
      | cons w ws =>
          rw [dumpItems_cons] at hn ⊢
          simp only [List.length_cons] at hn
          have hitems := readItems_dumps ensureAscii (w :: ws) n rest (by simp) h.2 (by omega)
          rcases itemsText_head ensureAscii (by simp) h.2 with ⟨c, cs, heq, hc⟩
          rw [heq, List.cons_append] at hitems
          rw [heq, List.cons_append, List.cons_append, List.cons_append,
            skipSpace_opens (by decide)]
          simp only [skipSpace_space, skipSpace_opens hc, hitems, Option.bind_some]

theorem readFields_dumps (ensureAscii : Bool) :
    forall (fs : List (Text × Json)) (n : Nat) (rest : Text),
      fs ≠ [] -> LegibleFields fs -> (fieldsText ensureAscii fs).length ≤ n ->
        readFields n (fieldsText ensureAscii fs ++ rest) = some (fs, rest)
  | [], n, rest, hne, _, _ => absurd rfl hne
  | (k, v) :: fs, 0, rest, _, h, hn => by
      simp [fieldsText, dumpString] at hn
  | (k, v) :: fs, n + 1, rest, _, h, hn => by
      have hpos := length_dumpFields_pos ensureAscii fs
      simp only [fieldsText, List.length_append] at hn
      have hvalue := readValue_dumps ensureAscii v n (dumpFields ensureAscii fs ++ rest) h.1
        (by omega) (dumpFields_stops ensureAscii fs rest)
      have hkey := readString_quoted ensureAscii k
        (':' :: ' ' :: (dumps ensureAscii v ++ (dumpFields ensureAscii fs ++ rest)))
      rcases dumps_head ensureAscii v h.1 with ⟨c, cs, heq, hc⟩
      have htext : fieldsText ensureAscii ((k, v) :: fs) ++ rest =
          '"' :: (k.flatMap (escape ensureAscii) ++ '"' :: (':' :: ' ' ::
            (dumps ensureAscii v ++ (dumpFields ensureAscii fs ++ rest)))) := by
        simp [fieldsText, dumpString]
      have hskip : skipSpace (dumps ensureAscii v ++ (dumpFields ensureAscii fs ++ rest)) =
          dumps ensureAscii v ++ (dumpFields ensureAscii fs ++ rest) := by
        rw [heq, List.cons_append]
        exact skipSpace_opens hc
      rw [htext]
      simp only [readFields, hkey, Option.bind_eq_bind, Option.bind_some]
      rw [skipSpace_opens (by decide)]
      simp only [skipSpace_space, hskip, hvalue, Option.bind_some]
      cases fs with
      | nil => simp [dumpFields, skipSpace]
      | cons f fs =>
          rw [dumpFields_cons] at hn ⊢
          simp only [List.length_cons] at hn
          have hfields := readFields_dumps ensureAscii (f :: fs) n rest (by simp) h.2 (by omega)
          rcases fieldsText_head ensureAscii (f :: fs) (by simp) with ⟨ds, hds⟩
          rw [hds, List.cons_append] at hfields
          rw [hds, List.cons_append, List.cons_append, List.cons_append,
            skipSpace_opens (by decide)]
          simp only [skipSpace_space, skipSpace_opens (by decide : Opens '"'), hfields,
            Option.bind_some]

end

theorem loads_dumps_legible (ensureAscii : Bool) (v : Json) (h : v.Legible) :
    loads (dumps ensureAscii v) = some v := by
  have hread := readValue_dumps ensureAscii v ((dumps ensureAscii v).length + 1) [] h
    (Nat.le_succ _) stops_nil
  rcases dumps_head ensureAscii v h with ⟨c, cs, heq, hc⟩
  rw [List.append_nil] at hread
  have hskip : skipSpace (dumps ensureAscii v) = dumps ensureAscii v := by
    rw [heq]
    exact skipSpace_opens hc
  unfold loads
  rw [hskip, hread]
  rfl

/-- `loads` reads back what `dumps` prints. -/
theorem loads_dumps (ensureAscii : Bool) (v : Json) (h : v.Plain) :
    loads (dumps ensureAscii v) = some v :=
  loads_dumps_legible ensureAscii v (Plain.legible v h)

end Json
end RagService
