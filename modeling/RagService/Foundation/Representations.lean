import RagService.Foundation.Numbers

/-!
# Texts of values

`str` and `repr` of the values that `json.loads` makes.  A float has the shortest digits that
read back as it.
-/

namespace RagService

namespace Double

def decimalExponent (q : Rat) : Int :=
  let e := ((Text.decimal q.num.natAbs).length : Int) - (Text.decimal q.den).length
  if q < (10 : Rat) ^ e then e - 1 else e

/-- The shortest digits of a positive double, and where the point stands in them. -/
def shortestDigits (q : Rat) : Text × Int :=
  let e := decimalExponent q
  let rounded (n : Nat) : Int := halfEven (q / (10 : Rat) ^ (e - n))
  let n := ((List.range 16).find? fun n : Nat =>
    ofRat (rounded n * (10 : Rat) ^ (e - n)) = finite q).getD 16
  let digits := Text.decimal (rounded n).toNat
  ((digits.reverse.dropWhile (· = '0')).reverse, digits.length + (e - n))

def reprPositive (q : Rat) : Text :=
  let (digits, point) := shortestDigits q
  if -4 < point ∧ point ≤ 16 then
    if point ≤ 0 then "0.".toList ++ List.replicate (-point).toNat '0' ++ digits
    else if digits.length ≤ point.toNat then
      digits ++ List.replicate (point.toNat - digits.length) '0' ++ ".0".toList
    else digits.take point.toNat ++ '.' :: digits.drop point.toNat
  else
    let exponent := Text.decimal (point - 1).natAbs
    digits.take 1 ++ (if digits.length ≤ 1 then [] else '.' :: digits.drop 1) ++
      ['e', if point - 1 < 0 then '-' else '+'] ++
      (if exponent.length < 2 then '0' :: exponent else exponent)

def reprLiteral (literal : Text) : Text :=
  let sign := if literal.head? = some '-' then ['-'] else []
  match ofLiteral literal with
  | finite q => sign ++ if q = 0 then "0.0".toList else reprPositive |q|
  | infinite _ => sign ++ "inf".toList
  | nan => "nan".toList

end Double

namespace Json

def hexText : Nat -> Nat -> Text
  | 0, _ => []
  | count + 1, n => hexText count (n / 16) ++ [hexDigit n]

/-- One character in the `repr` of a text; the printable characters are those of Unicode. -/
def reprChar (isPrintable : Char -> Bool) (quote c : Char) : Text :=
  let n := c.toNat
  if c = quote ∨ c = '\\' then ['\\', c]
  else if c = '\t' then ['\\', 't']
  else if c = '\n' then ['\\', 'n']
  else if c = '\r' then ['\\', 'r']
  else if 32 ≤ n ∧ n < 127 then [c]
  else if 127 < n ∧ isPrintable c then [c]
  else if n ≤ 0xff then ['\\', 'x'] ++ hexText 2 n
  else if n ≤ 0xffff then ['\\', 'u'] ++ hexText 4 n
  else ['\\', 'U'] ++ hexText 8 n

def reprText (isPrintable : Char -> Bool) (s : Text) : Text :=
  let quote := if '\'' ∈ s ∧ '"' ∉ s then '"' else '\''
  quote :: s.flatMap (reprChar isPrintable quote) ++ [quote]

mutual

/-- `repr(v)` -/
def repr (isPrintable : Char -> Bool) : Json -> Text
  | null => "None".toList
  | bool true => "True".toList
  | bool false => "False".toList
  | int z => dumpInt z
  | float literal => Double.reprLiteral literal
  | str s => reprText isPrintable s
  | arr [] => ['[', ']']
  | arr (v :: vs) => '[' :: repr isPrintable v ++ reprItems isPrintable vs
  | obj [] => ['{', '}']
  | obj ((k, v) :: fs) =>
      '{' :: reprText isPrintable k ++ [':', ' '] ++ repr isPrintable v ++
        reprFields isPrintable fs

def reprItems (isPrintable : Char -> Bool) : List Json -> Text
  | [] => [']']
  | v :: vs => [',', ' '] ++ repr isPrintable v ++ reprItems isPrintable vs

def reprFields (isPrintable : Char -> Bool) : List (Text × Json) -> Text
  | [] => ['}']
  | (k, v) :: fs =>
      [',', ' '] ++ reprText isPrintable k ++ [':', ' '] ++ repr isPrintable v ++
        reprFields isPrintable fs

end

/-- `str(v)` -/
def asText (isPrintable : Char -> Bool) : Json -> Text
  | str s => s
  | v => repr isPrintable v

/-!
# Visible characters

A value that is no text is shown with a visible character.
-/

def Visible (s : Text) : Prop :=
  exists c, c ∈ s ∧ Text.isSpace c = false

theorem Visible.append_left {s : Text} (h : Visible s) (t : Text) : Visible (s ++ t) := by
  rcases h with ⟨c, hc, hspace⟩
  exact ⟨c, List.mem_append_left t hc, hspace⟩

theorem Visible.append_right {t : Text} (h : Visible t) (s : Text) : Visible (s ++ t) := by
  rcases h with ⟨c, hc, hspace⟩
  exact ⟨c, List.mem_append_right s hc, hspace⟩

theorem visible_cons {c : Char} (h : Text.isSpace c = false) (s : Text) : Visible (c :: s) :=
  ⟨c, List.mem_cons_self, h⟩

theorem visible_dumpInt (z : Int) : Visible (dumpInt z) := by
  have hdecimal : forall n, Visible (Text.decimal n) := by
    intro n
    cases hdigits : Text.decimal n with
    | nil => exact absurd hdigits (Nat.toDigits_ne_nil)
    | cons d rest =>
        have hd : d ∈ Text.decimal n := by
          rw [hdigits]
          exact List.mem_cons_self
        exact visible_cons (Text.isSpace_of_isDigit (Text.isDigit_of_mem_decimal hd)) rest
  unfold dumpInt
  split
  · exact visible_cons (by decide) _
  · exact hdecimal _

theorem visible_reprPositive (q : Rat) : Visible (Double.reprPositive q) := by
  unfold Double.reprPositive
  dsimp only
  split
  · split
    · exact ((visible_cons (by decide) _).append_left _).append_left _
    · split
      · exact (visible_cons (by decide) _).append_right _
      · exact (visible_cons (by decide) _).append_right _
  · exact ((visible_cons (by decide) _).append_right _).append_left _

theorem visible_reprLiteral (literal : Text) : Visible (Double.reprLiteral literal) := by
  unfold Double.reprLiteral
  dsimp only
  split
  · apply Visible.append_right
    split
    · exact visible_cons (by decide) _
    · exact visible_reprPositive _
  · exact (visible_cons (by decide) _).append_right _
  · exact visible_cons (by decide) _

theorem visible_asText (isPrintable : Char -> Bool) {v : Json} (h : forall s, v ≠ .str s) :
    Visible (v.asText isPrintable) := by
  cases v with
  | str s => exact absurd rfl (h s)
  | null => exact visible_cons (by decide) _
  | bool b =>
      cases b with
      | true => exact visible_cons (by decide) _
      | false => exact visible_cons (by decide) _
  | int z => exact visible_dumpInt z
  | float literal => exact visible_reprLiteral literal
  | arr items =>
      cases items with
      | nil => exact visible_cons (by decide) _
      | cons v vs => exact visible_cons (by decide) _
  | obj fields =>
      cases fields with
      | nil => exact visible_cons (by decide) _
      | cons f fs => exact visible_cons (by decide) _

end Json
end RagService
