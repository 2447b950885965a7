import Mathlib.Algebra.Order.Floor.Ring
import Mathlib.Data.Rat.Floor
import RagService.Foundation.Json

/-!
# Numbers

Python's `float`, and the conversions `int(x)` and `float(x)` of texts and numbers.
-/

namespace RagService

/-- A `float`: a double as an exact number, an infinity, or `nan`. -/
inductive Double where
  | finite (q : Rat)
  | infinite (negative : Bool)
  | nan
  deriving DecidableEq

namespace Double

def le : Double -> Double -> Bool
  | finite p, finite q => p ≤ q
  | finite _, infinite negative => !negative
  | infinite negative, finite _ => negative
  | infinite negative, infinite negative' => negative || !negative'
  | nan, _ | _, nan => false

/-- The place of a `float` on the extended line; `nan` has none of its own. -/
def place : Double -> WithBot (WithTop Rat)
  | finite q => ((q : WithTop Rat) : WithBot (WithTop Rat))
  | infinite negative => if negative then ⊥ else ((⊤ : WithTop Rat) : WithBot (WithTop Rat))
  | nan => ⊥

theorem le_iff_place {x y : Double} (hx : x ≠ nan) (hy : y ≠ nan) :
    x.le y = true ↔ x.place ≤ y.place := by
  cases x with
  | nan => exact absurd rfl hx
  | finite p =>
      cases y with
      | nan => exact absurd rfl hy
      | finite q =>
          show decide (p ≤ q) = true ↔ _
          rw [decide_eq_true_eq]
          unfold place
          rw [WithBot.coe_le_coe, WithTop.coe_le_coe]
      | infinite negative => cases negative <;> simp [le, place]
  | infinite negative =>
      cases y with
      | nan => exact absurd rfl hy
      | finite q => cases negative <;> simp [le, place]
      | infinite negative' => cases negative <;> cases negative' <;> simp [le, place]

theorem eq_of_place_eq_bot {x : Double} (hx : x ≠ nan) (h : x.place = ⊥) : x = infinite true := by
  cases x with
  | nan => exact absurd rfl hx
  | finite q => cases h
  | infinite negative =>
      cases negative with
      | true => rfl
      | false => cases h

/-!
# Rounding

A number becomes the nearest double, and the one with the even last digit of two that are
equally near; a number beyond the range overflows.
-/

def halfEven (q : Rat) : Int :=
  let below := ⌊q⌋
  let rest := q - below
  if rest < 1 / 2 ∨ (rest = 1 / 2 ∧ below % 2 = 0) then below else below + 1

def binaryExponent (q : Rat) : Int :=
  let e := (Nat.log2 q.num.natAbs : Int) - Nat.log2 q.den
  if q < (2 : Rat) ^ e then e - 1 else e

def ofRat (q : Rat) : Double :=
  if q = 0 then finite 0
  else
    let unit := (2 : Rat) ^ max (binaryExponent |q| - 52) (-1074)
    let rounded := halfEven (q / unit) * unit
    if 2 ^ 1024 ≤ |rounded| then infinite (q < 0) else finite rounded

/-!
# Texts

`int` and `float` read a text without the white space around it, with underscores between
digits, and with decimal digits of any script.  The separators U+001C to U+001F are white space
of `str.strip`, and none for them.  The digits of an integer text are limited by
`sys.int_info.default_max_str_digits`.
-/

def asciiDigit (c : Char) : Char :=
  match Text.decimalZeros.find? fun z => z ≤ c.toNat && c.toNat < z + 10 with
  | some z => Char.ofNat ('0'.toNat + (c.toNat - z))
  | none => c

def dropUnderscores : Char -> Text -> Option Text
  | last, [] => if last = '_' then none else some []
  | last, c :: rest =>
      if c = '_' then
        if last.isDigit then dropUnderscores '_' rest else none
      else if last = '_' ∧ ¬ c.isDigit then none
      else (dropUnderscores c rest).map (c :: ·)

def readSign : Text -> Bool × Text
  | '-' :: rest => (true, rest)
  | '+' :: rest => (false, rest)
  | s => (false, s)

/-- White space that `int` and `float` skip: not the separators U+001C to U+001F. -/
def isNumberSpace (c : Char) : Bool :=
  Text.isSpace c && !(28 ≤ c.toNat && c.toNat ≤ 31)

def plainNumber (s : Text) : Option Text :=
  let trimmed := ((s.dropWhile isNumberSpace).reverse.dropWhile isNumberSpace).reverse
  dropUnderscores ' ' (trimmed.map asciiDigit)

def readExponent : Text -> Option Int
  | [] => some 0
  | c :: rest =>
      let (negative, digits) := readSign rest
      if (c = 'e' ∨ c = 'E') ∧ digits ≠ [] ∧ digits.all Char.isDigit then
        let n := Nat.ofDigitChars 10 digits 0
        some (if negative then -(n : Int) else n)
      else none

def readDecimal (s : Text) : Option Rat :=
  let whole := s.takeWhile Char.isDigit
  let rest := s.dropWhile Char.isDigit
  let fraction := if rest.head? = some '.' then rest.tail.takeWhile Char.isDigit else []
  let rest := if rest.head? = some '.' then rest.tail.dropWhile Char.isDigit else rest
  if whole ++ fraction = [] then none
  else
    (readExponent rest).map fun exponent =>
      (Nat.ofDigitChars 10 (whole ++ fraction) 0 : Rat) *
        (10 : Rat) ^ (exponent - (fraction.length : Int))

/-- `float(text)`; `none` is the `ValueError`. -/
def ofText (s : Text) : Option Double :=
  (plainNumber s).bind fun plain =>
    let (negative, s) := readSign plain
    let word := Text.lowerAscii s
    if word = "inf".toList ∨ word = "infinity".toList then some (infinite negative)
    else if word = "nan".toList then some nan
    else (readDecimal s).map fun q => ofRat (if negative then -q else q)

/-- The value of a number of `json` that is no integer. -/
def ofLiteral (literal : Text) : Double :=
  (ofText literal).getD nan

/-- The digits of an integer text are limited, `sys.int_info.default_max_str_digits`. -/
def maxStrDigits : Nat :=
  4300

/-- `int(text)`; `none` is the `ValueError`. -/
def intOfText (s : Text) : Option Int :=
  (plainNumber s).bind fun plain =>
    let (negative, digits) := readSign plain
    if digits ≠ [] ∧ digits.all Char.isDigit ∧ digits.length ≤ maxStrDigits then
      let n := Nat.ofDigitChars 10 digits 0
      some (if negative then -(n : Int) else n)
    else none

end Double

/-- `bool(v)` -/
def Json.truthy : Json -> Bool
  | .null => false
  | .bool b => b
  | .int z => z ≠ 0
  | .float literal => Double.ofLiteral literal ≠ .finite 0
  | .str s => !s.isEmpty
  | .arr items => !items.isEmpty
  | .obj fields => !fields.isEmpty

end RagService
