import RagService.Foundation.Text

/-!
# JSON texts

The values and the text format of Python's `json` module: `dumps` with its
default separators and both settings of `ensure_ascii`, and `loads`.  A float
keeps its literal, since its value belongs to the number type of the caller.
-/

namespace RagService

inductive Json where
  | null
  | bool (b : Bool)
  | int (z : Int)
  | float (literal : Text)
  | str (s : Text)
  | arr (items : List Json)
  | obj (fields : List (Text × Json))

namespace Json

/-!
# Printing

`\uXXXX` is written for one UTF-16 code unit, so twice for a character outside the basic plane.
-/

def hexDigits : List Char :=
  ['0', '1', '2', '3', '4', '5', '6', '7', '8', '9', 'a', 'b', 'c', 'd', 'e', 'f']

def hexDigit (n : Nat) : Char :=
  hexDigits.getD (n % 16) '0'

def unicodeEscape (n : Nat) : Text :=
  ['\\', 'u', hexDigit (n / 4096), hexDigit (n / 256), hexDigit (n / 16), hexDigit n]

def escape (ensureAscii : Bool) (c : Char) : Text :=
  if c = '"' then ['\\', '"']
  else if c = '\\' then ['\\', '\\']
  else if c = '\n' then ['\\', 'n']
  else if c = '\r' then ['\\', 'r']
  else if c = '\t' then ['\\', 't']
  else if c = Char.ofNat 12 then ['\\', 'f']
  else if c = Char.ofNat 8 then ['\\', 'b']
  else if c.toNat < 32 then unicodeEscape c.toNat
  else if ensureAscii && 126 < c.toNat then
    if c.toNat < 0x10000 then
      unicodeEscape c.toNat
    else
      -- outside the basic plane: a surrogate pair
      unicodeEscape (0xd800 + (c.toNat - 0x10000) / 1024) ++
        unicodeEscape (0xdc00 + (c.toNat - 0x10000) % 1024)
  else [c]

def dumpString (ensureAscii : Bool) (s : Text) : Text :=
  '"' :: s.flatMap (escape ensureAscii) ++ ['"']

def dumpInt (z : Int) : Text :=
  if z < 0 then '-' :: Text.decimal z.natAbs else Text.decimal z.natAbs

mutual

/-- `json.dumps(value, ensure_ascii=ensureAscii)`. -/
def dumps (ensureAscii : Bool) : Json -> Text
  | null => "null".toList
  | bool true => "true".toList
  | bool false => "false".toList
  | int z => dumpInt z
  | float literal => literal
  | str s => dumpString ensureAscii s
  | arr [] => ['[', ']']
  | arr (v :: vs) => '[' :: dumps ensureAscii v ++ dumpItems ensureAscii vs
  | obj [] => ['{', '}']
  | obj ((k, v) :: fs) =>
      '{' :: dumpString ensureAscii k ++ [':', ' '] ++ dumps ensureAscii v ++
        dumpFields ensureAscii fs

def dumpItems (ensureAscii : Bool) : List Json -> Text
  | [] => [']']
  | v :: vs => [',', ' '] ++ dumps ensureAscii v ++ dumpItems ensureAscii vs

def dumpFields (ensureAscii : Bool) : List (Text × Json) -> Text
  | [] => ['}']
  | (k, v) :: fs =>
      [',', ' '] ++ dumpString ensureAscii k ++ [':', ' '] ++ dumps ensureAscii v ++
        dumpFields ensureAscii fs

end

/-!
# Reading

Texts are read from their front, and each reader gives the rest of the text.  The characters of
a surrogate pair are joined; a lone surrogate has no character here.
-/

def skipSpace (s : Text) : Text :=
  s.dropWhile fun c => c == ' ' || c == '\t' || c == '\n' || c == '\r'

def hexValue (c : Char) : Option Nat :=
  if '0' ≤ c ∧ c ≤ '9' then some (c.toNat - 48)
  else if 'a' ≤ c ∧ c ≤ 'f' then some (c.toNat - 87)
  else if 'A' ≤ c ∧ c ≤ 'F' then some (c.toNat - 55)
  else none

/-- The four digits of a `\uXXXX` escape. -/
def readUnicode : Text -> Option (Nat × Text)
  | a :: b :: c :: d :: rest => do
      let a ← hexValue a
      let b ← hexValue b
      let c ← hexValue c
      let d ← hexValue d
      some (((a * 16 + b) * 16 + c) * 16 + d, rest)
  | _ => none

def charOf (n : Nat) : Option Char :=
  if n.isValidChar then some (Char.ofNat n) else none

/-- A `\u` escape, joined with the next one when they form a surrogate pair. -/
def readEscapedUnicode (s : Text) : Option (Char × Text) := do
  let (hi, rest) ← readUnicode s
  if 0xd800 ≤ hi ∧ hi < 0xdc00 then
    match rest with
    | '\\' :: 'u' :: rest' =>
        let (lo, rest'') ← readUnicode rest'
        if 0xdc00 ≤ lo ∧ lo < 0xe000 then
          (charOf (0x10000 + (hi - 0xd800) * 1024 + (lo - 0xdc00))).map fun c => (c, rest'')
        else none
    | _ => none
  else
    (charOf hi).map fun c => (c, rest)

def readChar : Text -> Option (Char × Text)
  | '\\' :: e :: rest =>
      if e = 'u' then readEscapedUnicode rest
      else if e = '"' ∨ e = '\\' ∨ e = '/' then some (e, rest)
      else if e = 'b' then some (Char.ofNat 8, rest)
      else if e = 'f' then some (Char.ofNat 12, rest)
      else if e = 'n' then some ('\n', rest)
      else if e = 'r' then some ('\r', rest)
      else if e = 't' then some ('\t', rest)
      else none
  | c :: rest => if c = '\\' ∨ c.toNat < 32 then none else some (c, rest)
  | [] => none

def readString : Nat -> Text -> Option (Text × Text)
  | 0, _ => none
  | n + 1, s =>
      match s with
      | '"' :: rest => some ([], rest)
      | _ => do
          let (c, rest) ← readChar s
          let (cs, rest') ← readString n rest
          some (c :: cs, rest')

def fraction : Text -> Text
  | '.' :: rest =>
      match rest.takeWhile Char.isDigit with
      | [] => []
      | ds => '.' :: ds
  | _ => []

def exponent : Text -> Text
  | e :: rest =>
      if e = 'e' ∨ e = 'E' then
        let sign := match rest with
          | '+' :: _ => ['+']
          | '-' :: _ => ['-']
          | _ => []
        match (rest.drop sign.length).takeWhile Char.isDigit with
        | [] => []
        | ds => e :: sign ++ ds
      else []
  | [] => []

def integerPart (s : Text) : Text :=
  match s with
  | '0' :: _ => ['0']
  | _ => s.takeWhile Char.isDigit

def minusSign : Text -> Text
  | '-' :: _ => ['-']
  | _ => []

def readNumber (s : Text) : Option (Json × Text) :=
  let sign := minusSign s
  let unsigned := s.drop sign.length
  let digits := integerPart unsigned
  if digits = [] then none
  else
    let rest := unsigned.drop digits.length
    let frac := fraction rest
    let rest := rest.drop frac.length
    let exp := exponent rest
    if frac = [] ∧ exp = [] then
      let n := Nat.ofDigitChars 10 digits 0
      some (int (if sign = [] then (n : Int) else -(n : Int)), rest)
    else
      some (float (sign ++ digits ++ frac ++ exp), rest.drop exp.length)

def dropWord : Text -> Text -> Option Text
  | [], s => some s
  | c :: cs, d :: s => if c = d then dropWord cs s else none
  | _ :: _, [] => none

def words : List (Text × Json) :=
  [("null".toList, null), ("true".toList, bool true), ("false".toList, bool false),
    ("NaN".toList, float "NaN".toList), ("Infinity".toList, float "Infinity".toList),
    ("-Infinity".toList, float "-Infinity".toList)]

def readWord (s : Text) : Option (Json × Text) :=
  words.findSome? fun (w, v) => (dropWord w s).map fun rest => (v, rest)

/-- A `dict` built from pairs: a later value replaces an earlier one in place. -/
def setField (fields : List (Text × Json)) (k : Text) (v : Json) : List (Text × Json) :=
  if fields.any (fun f => f.1 = k) then
    fields.map fun f => if f.1 = k then (k, v) else f
  else
    fields ++ [(k, v)]

def dictOf (pairs : List (Text × Json)) : List (Text × Json) :=
  pairs.foldl (fun fields p => setField fields p.1 p.2) []

mutual

def readValue : Nat -> Text -> Option (Json × Text)
  | 0, _ => none
  | n + 1, s =>
      match s with
      | '"' :: rest => (readString (rest.length + 1) rest).map fun p => (str p.1, p.2)
      | '[' :: rest =>
          match skipSpace rest with
          | ']' :: rest' => some (arr [], rest')
          | rest' => (readItems n rest').map fun p => (arr p.1, p.2)
      | '{' :: rest =>
          match skipSpace rest with
          | '}' :: rest' => some (obj [], rest')
          | rest' => (readFields n rest').map fun p => (obj (dictOf p.1), p.2)
      | _ =>
          match readWord s with
          | some p => some p
          | none => readNumber s

def readItems : Nat -> Text -> Option (List Json × Text)
  | 0, _ => none
  | n + 1, s => do
      let (v, rest) ← readValue n s
      match skipSpace rest with
      | ']' :: rest' => some ([v], rest')
      | ',' :: rest' =>
          let (vs, rest'') ← readItems n (skipSpace rest')
          some (v :: vs, rest'')
      | _ => none

def readFields : Nat -> Text -> Option (List (Text × Json) × Text)
  | 0, _ => none
  | n + 1, s =>
      match s with
      | '"' :: quoted => do
          let (k, rest) ← readString (quoted.length + 1) quoted
          match skipSpace rest with
          | ':' :: rest' =>
              let (v, rest'') ← readValue n (skipSpace rest')
              match skipSpace rest'' with
              | '}' :: rest₃ => some ([(k, v)], rest₃)
              | ',' :: rest₃ =>
                  let (fs, rest₄) ← readFields n (skipSpace rest₃)
                  some ((k, v) :: fs, rest₄)
              | _ => none
          | _ => none
      | _ => none

end

/-- `json.loads(text)`; `none` is the `JSONDecodeError`. -/
def loads (s : Text) : Option Json :=
  match readValue (s.length + 1) (skipSpace s) with
  | some (v, rest) => if skipSpace rest = [] then some v else none
  | none => none

/-- The value of a key of an object. -/
def field (fields : List (Text × Json)) (k : Text) : Option Json :=
  (fields.find? fun f => f.1 = k).map Prod.snd

end Json
end RagService
