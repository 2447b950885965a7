import Mathlib.Algebra.Group.Nat.Defs
import Mathlib.Data.List.Basic
import Mathlib.Data.List.TakeWhile

/-!
# Text

Strings as lists of characters, with the operations of Python's `str` that
programs over text are written in: `strip`, `splitlines`, `join`, slicing,
decimal printing.  All of them are structural, so they evaluate in the kernel.
-/

namespace RagService

/-- A Unicode string, character by character. -/
abbrev Text := List Char

/-- Texts are equal when their characters are. -/
instance (priority := high) instLawfulBEqText : LawfulBEq Text := inferInstance

abbrev Bytes := List UInt8

namespace Text

/-!
# Character classes

The characters that `str.isspace`, the regular expression `\d` and `str.splitlines` tell apart.
Each decimal digit block of Unicode has ten digits.
-/

def isSpace (c : Char) : Bool :=
  let n := c.toNat
  (9 ≤ n && n ≤ 13) || (28 ≤ n && n ≤ 32) || n == 0x85 || n == 0xa0 || n == 0x1680 ||
    (0x2000 ≤ n && n ≤ 0x200a) || n == 0x2028 || n == 0x2029 || n == 0x202f ||
    n == 0x205f || n == 0x3000

def decimalZeros : List Nat :=
  [0x30, 0x660, 0x6f0, 0x7c0, 0x966, 0x9e6, 0xa66, 0xae6, 0xb66, 0xbe6, 0xc66, 0xce6, 0xd66,
    0xde6, 0xe50, 0xed0, 0xf20, 0x1040, 0x1090, 0x17e0, 0x1810, 0x1946, 0x19d0, 0x1a80,
    0x1a90, 0x1b50, 0x1bb0, 0x1c40, 0x1c50, 0xa620, 0xa8d0, 0xa900, 0xa9d0, 0xa9f0, 0xaa50,
    0xabf0, 0xff10, 0x104a0, 0x10d30, 0x11066, 0x110f0, 0x11136, 0x111d0, 0x112f0, 0x11450,
    0x114d0, 0x11650, 0x116c0, 0x11730, 0x118e0, 0x11950, 0x11c50, 0x11d50, 0x11da0,
    0x16a60, 0x16ac0, 0x16b50, 0x1d7ce, 0x1d7d8, 0x1d7e2, 0x1d7ec, 0x1d7f6, 0x1e140,
    0x1e2f0, 0x1e950, 0x1fbf0]

/-- A character that the regular expression `\d` matches. -/
def isDecimal (c : Char) : Bool :=
  decimalZeros.any fun z => z ≤ c.toNat && c.toNat < z + 10

/-- A character at which `str.splitlines` ends a line. -/
def isLineBreak (c : Char) : Bool :=
  let n := c.toNat
  (10 ≤ n && n ≤ 13) || (28 ≤ n && n ≤ 30) || n == 0x85 || n == 0x2028 || n == 0x2029

/-!
# Trimming, slicing and joining

`str.strip`, `str.rstrip`, slices, `str.join`, `str.splitlines` and `str.lower` on ASCII.
-/

def strip (s : Text) : Text :=
  ((s.dropWhile isSpace).reverse.dropWhile isSpace).reverse

def rstrip (s : Text) : Text :=
  (s.reverse.dropWhile isSpace).reverse

/-- `s[start : start + size]` for natural bounds. -/
def slice (s : Text) (start size : Nat) : Text :=
  (s.drop start).take size

/-- `s[-n:]` for a positive `n`. -/
def takeEnd (s : Text) (n : Nat) : Text :=
  s.drop (s.length - n)

def join (sep : Text) : List Text -> Text
  | [] => []
  | [p] => p
  | p :: q :: ps => p ++ sep ++ join sep (q :: ps)

def consPiece (c : Char) : List Text -> List Text
  | [] => [[c]]
  | p :: ps => (c :: p) :: ps

def splitLines : Text -> List Text
  | [] => []
  | '\r' :: '\n' :: rest => [] :: splitLines rest
  | c :: rest =>
      if isLineBreak c then [] :: splitLines rest else consPiece c (splitLines rest)

/-- `str.lower()` on the ASCII letters. -/
def lowerAscii (s : Text) : Text :=
  s.map fun c => if 'A' ≤ c ∧ c ≤ 'Z' then Char.ofNat (c.toNat + 32) else c

/-- The part of a text after its last occurrence of a separator, if it has one. -/
def afterLast (sep : Char) : Text -> Option Text
  | [] => none
  | c :: rest =>
      match afterLast sep rest with
      | some tail => some tail
      | none => if c = sep then some rest else none

/-!
# UTF-8

The greatest character code is `0x10FFFF`.  A decoder that replaces errors puts one replacement
character after the longest valid prefix of a sequence.
-/

theorem toNat_lt (c : Char) : c.toNat < 0x110000 := by
  have hvalid := c.valid
  cases hvalid with
  | inl h => exact Nat.lt_trans h (by decide)
  | inr h => exact h.2

def encodeChar (c : Char) : Bytes :=
  let n := c.toNat
  let tail (k : Nat) : UInt8 := UInt8.ofNat (0x80 + (n / 64 ^ k) % 64)
  if n < 0x80 then [UInt8.ofNat n]
  else if n < 0x800 then [UInt8.ofNat (0xc0 + n / 64), tail 0]
  else if n < 0x10000 then [UInt8.ofNat (0xe0 + n / 4096), tail 1, tail 0]
  else [UInt8.ofNat (0xf0 + n / 262144), tail 2, tail 1, tail 0]

def encode (s : Text) : Bytes :=
  s.flatMap encodeChar

def leadByte (b : Nat) : Option (Nat × List (Nat × Nat)) :=
  let any := (0x80, 0xbf)
  if b < 0x80 then some (b, [])
  else if 0xc2 ≤ b ∧ b ≤ 0xdf then some (b - 0xc0, [any])
  else if b = 0xe0 then some (0, [(0xa0, 0xbf), any])
  else if b = 0xed then some (0xd, [(0x80, 0x9f), any])
  else if 0xe1 ≤ b ∧ b ≤ 0xef then some (b - 0xe0, [any, any])
  else if b = 0xf0 then some (0, [(0x90, 0xbf), any, any])
  else if 0xf1 ≤ b ∧ b ≤ 0xf3 then some (b - 0xf0, [any, any, any])
  else if b = 0xf4 then some (4, [(0x80, 0x8f), any, any])
  else none

/--
Read continuation bytes: the character they complete, or the replacement character
after the longest valid prefix, and the bytes that are left.
-/
def decodeTail : Nat -> List (Nat × Nat) -> Bytes -> Char × Bytes
  | value, [], rest => (Char.ofNat value, rest)
  | _, _ :: _, [] => (Char.ofNat 0xfffd, [])
  | value, (lo, hi) :: ranges, b :: rest =>
      if lo ≤ b.toNat ∧ b.toNat ≤ hi then
        decodeTail (value * 64 + b.toNat % 64) ranges rest
      else
        (Char.ofNat 0xfffd, b :: rest)

/-- `data.decode('utf-8', errors='replace')`, with at most `n` characters read. -/
def decodeUpTo : Nat -> Bytes -> Text
  | 0, _ => []
  | _ + 1, [] => []
  | n + 1, b :: rest =>
      match leadByte b.toNat with
      | none => Char.ofNat 0xfffd :: decodeUpTo n rest
      | some (value, ranges) =>
          let (c, rest') := decodeTail value ranges rest
          c :: decodeUpTo n rest'

def decode (data : Bytes) : Text :=
  decodeUpTo data.length data

/-!
# Decimal numerals
-/

def decimal (n : Nat) : Text :=
  Nat.toDigits 10 n

theorem decimal_injective : Function.Injective decimal := by
  intro m n h
  have hm := Nat.ofDigitChars_toDigits (b := 10) (n := m) (by decide) (by decide)
  have hn := Nat.ofDigitChars_toDigits (b := 10) (n := n) (by decide) (by decide)
  unfold decimal at h
  rw [← hm, h, hn]

theorem isDigit_of_mem_decimal {n : Nat} {c : Char} (h : c ∈ decimal n) : c.isDigit = true :=
  Nat.isDigit_of_mem_toDigits (by decide) (by decide) h

theorem toNat_of_isDigit {c : Char} (h : c.isDigit = true) : 48 ≤ c.toNat ∧ c.toNat ≤ 57 := by
  unfold Char.isDigit at h
  rw [Bool.and_eq_true, decide_eq_true_eq, decide_eq_true_eq] at h
  exact h

theorem isSpace_of_isDigit {c : Char} (h : c.isDigit = true) : isSpace c = false := by
  have hdigit := toNat_of_isDigit h
  unfold isSpace
  generalize c.toNat = n at hdigit
  simp only [Bool.or_eq_false_iff, Bool.and_eq_false_iff, decide_eq_false_iff_not,
    beq_eq_false_iff_ne]
  omega

/-!
# Joined parts
-/

theorem isInfix_join {sep p : Text} {parts : List Text} (h : p ∈ parts) : p <:+: join sep parts := by
  induction parts with
  | nil => cases h
  | cons q rest ih =>
      cases rest with
      | nil =>
          rw [List.mem_singleton.mp h]
          exact List.infix_refl q
      | cons next rest =>
          rw [join]
          cases h with
          | head => exact ⟨[], sep ++ join sep (next :: rest), by simp⟩
          | tail _ h => exact (ih h).trans (List.suffix_append _ _).isInfix

theorem join_append_singleton {sep : Text} {parts : List Text} (h : parts ≠ []) (p : Text) :
    join sep (parts ++ [p]) = join sep parts ++ sep ++ p := by
  induction parts with
  | nil => exact absurd rfl h
  | cons q rest ih =>
      cases rest with
      | nil => rfl
      | cons next rest =>
          rw [List.cons_append, List.cons_append, join, ← List.cons_append,
            ih (List.cons_ne_nil _ _), join]
          simp only [List.append_assoc]

/-!
# Lines
-/

theorem isLineBreak_iff {c : Char} : isLineBreak c = true ↔
    (10 ≤ c.toNat ∧ c.toNat ≤ 13) ∨ (28 ≤ c.toNat ∧ c.toNat ≤ 30) ∨
      c.toNat = 0x85 ∨ c.toNat = 0x2028 ∨ c.toNat = 0x2029 := by
  unfold isLineBreak
  generalize c.toNat = n
  simp only [Bool.or_eq_true, Bool.and_eq_true, decide_eq_true_eq, beq_iff_eq, or_assoc]

theorem isSpace_of_isLineBreak {c : Char} (h : isLineBreak c = true) : isSpace c = true := by
  rw [isLineBreak_iff] at h
  unfold isSpace
  generalize c.toNat = n at h
  simp only [Bool.or_eq_true, Bool.and_eq_true, decide_eq_true_eq, beq_iff_eq]
  omega

theorem flatten_consPiece (c : Char) (lines : List Text) :
    (consPiece c lines).flatten = c :: lines.flatten := by
  cases lines with
  | nil => rfl
  | cons line rest => rfl

theorem mem_splitLines {text : Text} {c : Char} (h : c ∈ (splitLines text).flatten) :
    c ∈ text := by
  fun_induction splitLines text with
  | case1 => exact h
  | case2 rest ih => exact List.mem_cons_of_mem _ (List.mem_cons_of_mem _ (ih h))
  | case3 c rest _ hbreak ih => exact List.mem_cons_of_mem _ (ih h)
  | case4 c rest _ hbreak ih =>
      rw [flatten_consPiece] at h
      cases h with
      | head => exact List.mem_cons_self
      | tail _ h => exact List.mem_cons_of_mem _ (ih h)

/-!
# What trimming keeps

A text that trimming does not empty has a visible character.
-/

theorem mem_dropWhile {p : Char -> Bool} {s : Text} {c : Char} (hc : c ∈ s) (hp : p c = false) :
    c ∈ s.dropWhile p := by
  rw [← List.takeWhile_append_dropWhile (p := p) (l := s)] at hc
  rcases List.mem_append.mp hc with htake | hdrop
  · have hpc := List.mem_takeWhile_imp htake
    rw [hp] at hpc
    cases hpc
  · exact hdrop

theorem mem_strip {s : Text} {c : Char} (hc : c ∈ s) (hspace : isSpace c = false) :
    c ∈ strip s := by
  unfold strip
  rw [List.mem_reverse]
  apply mem_dropWhile _ hspace
  rw [List.mem_reverse]
  exact mem_dropWhile hc hspace

theorem mem_of_mem_strip {s : Text} {c : Char} (h : c ∈ strip s) : c ∈ s := by
  unfold strip at h
  rw [List.mem_reverse] at h
  have h' := (List.dropWhile_sublist isSpace).subset h
  rw [List.mem_reverse] at h'
  exact (List.dropWhile_sublist isSpace).subset h'

theorem exists_visible_of_strip_ne_nil {s : Text} (h : strip s ≠ []) :
    exists c, c ∈ strip s ∧ isSpace c = false := by
  unfold strip at h ⊢
  cases htail : (s.dropWhile isSpace).reverse.dropWhile isSpace with
  | nil =>
      rw [htail] at h
      exact absurd rfl h
  | cons c rest =>
      refine ⟨c, by simp, ?_⟩
      have hne : (s.dropWhile isSpace).reverse.dropWhile isSpace ≠ [] := by
        simp [htail]
      have hhead := List.head_dropWhile_not isSpace hne
      simpa [htail] using hhead

theorem strip_ne_nil_iff {s : Text} :
    strip s ≠ [] ↔ exists c, c ∈ s ∧ isSpace c = false := by
  constructor
  · intro h
    rcases exists_visible_of_strip_ne_nil h with ⟨c, hc, hspace⟩
    exact ⟨c, mem_of_mem_strip hc, hspace⟩
  · intro h
    rcases h with ⟨c, hc, hspace⟩
    exact List.ne_nil_of_mem (mem_strip hc hspace)

end Text
end RagService
