import RagService.Foundation.Text

/-!
# UTF-8

Different texts have different bytes: the first byte of a character says how many follow,
and the bytes give back its number.  The readers of bytes give back the text that was encoded.
-/

namespace RagService
namespace Text

def continuation (n k : Nat) : UInt8 :=
  UInt8.ofNat (0x80 + n / 64 ^ k % 64)

inductive Encoded (n : Nat) : Bytes -> Prop where
  | one (h : n < 0x80) : Encoded n [UInt8.ofNat n]
  | two (h : 0x80 ≤ n) (h' : n < 0x800) :
      Encoded n [UInt8.ofNat (0xc0 + n / 64), continuation n 0]
  | three (h : 0x800 ≤ n) (h' : n < 0x10000) :
      Encoded n [UInt8.ofNat (0xe0 + n / 4096), continuation n 1, continuation n 0]
  | four (h : 0x10000 ≤ n) (h' : n < 0x110000) :
      Encoded n [UInt8.ofNat (0xf0 + n / 262144), continuation n 2, continuation n 1,
        continuation n 0]

theorem encoded_encodeChar (c : Char) : Encoded c.toNat (encodeChar c) := by
  unfold encodeChar
  dsimp only
  split
  · rename_i hone
    exact .one hone
  rename_i hone
  split
  · rename_i htwo
    exact .two (Nat.le_of_not_lt hone) htwo
  rename_i htwo
  split
  · rename_i hthree
    exact .three (Nat.le_of_not_lt htwo) hthree
  · rename_i hthree
    exact .four (Nat.le_of_not_lt hthree) (toNat_lt c)

def following (b : UInt8) : Nat :=
  if b.toNat < 0xc0 then 0
  else if b.toNat < 0xe0 then 1
  else if b.toNat < 0xf0 then 2
  else 3

def continued (value : Nat) (tail : Bytes) : Nat :=
  tail.foldl (fun value b => value * 64 + (b.toNat - 0x80)) value

def number : Bytes -> Nat
  | [] => 0
  | b :: tail =>
      if b.toNat < 0xc0 then b.toNat
      else if b.toNat < 0xe0 then continued (b.toNat - 0xc0) tail
      else if b.toNat < 0xf0 then continued (b.toNat - 0xe0) tail
      else continued (b.toNat - 0xf0) tail

theorem Encoded.following {n : Nat} {bytes : Bytes} (h : Encoded n bytes) :
    exists b tail, bytes = b :: tail ∧ tail.length = following b := by
  unfold Text.following
  cases h with
  | one h =>
      refine ⟨_, _, rfl, ?_⟩
      rw [UInt8.toNat_ofNat', if_pos (by omega)]
      rfl
  | two h h' =>
      refine ⟨_, _, rfl, ?_⟩
      rw [UInt8.toNat_ofNat', if_neg (by omega), if_pos (by omega)]
      rfl
  | three h h' =>
      refine ⟨_, _, rfl, ?_⟩
      rw [UInt8.toNat_ofNat', if_neg (by omega), if_neg (by omega), if_pos (by omega)]
      rfl
  | four h h' =>
      refine ⟨_, _, rfl, ?_⟩
      rw [UInt8.toNat_ofNat', if_neg (by omega), if_neg (by omega), if_neg (by omega)]
      rfl

theorem Encoded.number {n : Nat} {bytes : Bytes} (h : Encoded n bytes) : number bytes = n := by
  cases h with
  | one h =>
      rw [Text.number, UInt8.toNat_ofNat', if_pos (by omega)]
      omega
  | two h h' =>
      rw [Text.number, UInt8.toNat_ofNat', if_neg (by omega), if_pos (by omega)]
      simp only [continued, List.foldl_cons, List.foldl_nil, continuation, UInt8.toNat_ofNat']
      omega
  | three h h' =>
      rw [Text.number, UInt8.toNat_ofNat', if_neg (by omega), if_neg (by omega), if_pos (by omega)]
      simp only [continued, List.foldl_cons, List.foldl_nil, continuation, UInt8.toNat_ofNat']
      omega
  | four h h' =>
      rw [Text.number, UInt8.toNat_ofNat', if_neg (by omega), if_neg (by omega), if_neg (by omega)]
      simp only [continued, List.foldl_cons, List.foldl_nil, continuation, UInt8.toNat_ofNat']
      omega

theorem encodeChar_injective : Function.Injective encodeChar := by
  intro c d h
  have hnumber := congrArg number h
  rw [(encoded_encodeChar c).number, (encoded_encodeChar d).number] at hnumber
  exact Char.ext (UInt32.toNat_inj.mp hnumber)

theorem encodeChar_ne_nil (c : Char) : encodeChar c ≠ [] := by
  rcases (encoded_encodeChar c).following with ⟨b, tail, heq, -⟩
  rw [heq]
  exact List.cons_ne_nil b tail

/-- The bytes of a character end where they end, whatever comes after them. -/
theorem encodeChar_append {c d : Char} {xs ys : Bytes}
    (h : encodeChar c ++ xs = encodeChar d ++ ys) : c = d ∧ xs = ys := by
  rcases (encoded_encodeChar c).following with ⟨b, tail, hc, htail⟩
  rcases (encoded_encodeChar d).following with ⟨b', tail', hd, htail'⟩
  have hfirst : b = b' := by
    rw [hc, hd] at h
    exact (List.cons.inj h).1
  have hlength : (encodeChar c).length = (encodeChar d).length := by
    rw [hc, hd, List.length_cons, List.length_cons, htail, htail', hfirst]
  rcases List.append_inj h hlength with ⟨hbytes, hrest⟩
  exact ⟨encodeChar_injective hbytes, hrest⟩

theorem encode_injective : Function.Injective encode := by
  intro s t h
  induction s generalizing t with
  | nil =>
      cases t with
      | nil => rfl
      | cons d t =>
          have happend : encodeChar d ++ encode t = [] := h.symm
          exact absurd (List.append_eq_nil_iff.mp happend).1 (encodeChar_ne_nil d)
  | cons c s ih =>
      cases t with
      | nil =>
          have happend : encodeChar c ++ encode s = [] := h
          exact absurd (List.append_eq_nil_iff.mp happend).1 (encodeChar_ne_nil c)
      | cons d t =>
          have happend : encodeChar c ++ encode s = encodeChar d ++ encode t := h
          rcases encodeChar_append happend with ⟨hhead, htail⟩
          rw [hhead, ih htail]

/-!
# Reading

The readers go from byte to byte: a first byte, and then bytes after it that complete a
character.  The second byte of three has no short forms and no surrogates.
-/

def readTail : Nat -> List (Nat × Nat) -> Bytes -> Option Char × Bytes
  | value, [], rest => (some (Char.ofNat value), rest)
  | _, _ :: _, [] => (none, [])
  | value, (lo, hi) :: ranges, b :: rest =>
      if lo ≤ b.toNat ∧ b.toNat ≤ hi then readTail (value * 64 + b.toNat % 64) ranges rest
      else (none, b :: rest)

/-- The characters of some bytes, at most `n` of them, with `none` where there is no character. -/
def charactersUpTo : Nat -> Bytes -> List (Option Char)
  | 0, _ => []
  | _ + 1, [] => []
  | n + 1, b :: rest =>
      match leadByte b.toNat with
      | none => none :: charactersUpTo n rest
      | some (value, ranges) =>
          (readTail value ranges rest).1 :: charactersUpTo n (readTail value ranges rest).2

def characters (data : Bytes) : List (Option Char) :=
  charactersUpTo data.length data

def decodeIgnore (data : Bytes) : Text :=
  (characters data).filterMap id

/-- `data.decode('utf-8')`; `none` is the `UnicodeDecodeError`. -/
def decodeStrict (data : Bytes) : Option Text :=
  (characters data).mapM id

theorem toNat_continuation (n k : Nat) : (continuation n k).toNat = 0x80 + n / 64 ^ k % 64 := by
  rw [continuation, UInt8.toNat_ofNat']
  omega

theorem readTail_continuation {value lo hi n k : Nat} {ranges : List (Nat × Nat)} {rest : Bytes}
    (hlo : lo ≤ 0x80 + n / 64 ^ k % 64) (hhi : 0x80 + n / 64 ^ k % 64 ≤ hi) :
    readTail value ((lo, hi) :: ranges) (continuation n k :: rest) =
      readTail (value * 64 + n / 64 ^ k % 64) ranges rest := by
  rw [readTail, toNat_continuation, if_pos ⟨hlo, hhi⟩]
  congr 2
  omega

theorem readTail_nil {value : Nat} {rest : Bytes} {c : Char} (h : value = c.toNat) :
    readTail value [] rest = (some c, rest) := by
  rw [readTail, h, Char.ofNat_toNat]

theorem toNat_first {n : Nat} (h : n < 256) : (UInt8.ofNat n).toNat = n := by
  rw [UInt8.toNat_ofNat', Nat.mod_eq_of_lt h]

theorem leadByte_two {m : Nat} (h : 2 ≤ m) (h' : m < 32) :
    leadByte (0xc0 + m) = some (m, [(0x80, 0xbf)]) := by
  rw [leadByte, if_neg (by omega), if_pos (by omega), Nat.add_sub_cancel_left]

theorem leadByte_three : forall m, m < 16 -> leadByte (0xe0 + m) =
    some (m, [(if m = 0 then 0xa0 else 0x80, if m = 13 then 0x9f else 0xbf), (0x80, 0xbf)]) := by
  decide

theorem leadByte_four : forall m, m < 5 -> leadByte (0xf0 + m) =
    some (m, [(if m = 0 then 0x90 else 0x80, if m = 4 then 0x8f else 0xbf), (0x80, 0xbf),
      (0x80, 0xbf)]) := by
  decide

theorem reads_encodeChar (c : Char) (rest : Bytes) :
    exists b tail value ranges, encodeChar c = b :: tail ∧
      leadByte b.toNat = some (value, ranges) ∧
        readTail value ranges (tail ++ rest) = (some c, rest) := by
  have hvalid : c.toNat < 0xd800 ∨ 0xdfff < c.toNat ∧ c.toNat < 0x110000 := c.valid
  generalize hencoded : encodeChar c = bytes
  have henc := encoded_encodeChar c
  rw [hencoded] at henc
  cases henc with
  | one h =>
      refine ⟨_, _, c.toNat, [], rfl, ?_, readTail_nil rfl⟩
      rw [toNat_first (by omega), leadByte, if_pos h]
  | two h h' =>
      refine ⟨_, _, _, _, rfl, (congrArg leadByte (toNat_first (by omega))).trans
        (leadByte_two (by omega) (by omega)), ?_⟩
      rw [List.cons_append, readTail_continuation (by omega) (by omega)]
      exact readTail_nil (by omega)
  | three h h' =>
      refine ⟨_, _, _, _, rfl, (congrArg leadByte (toNat_first (by omega))).trans
        (leadByte_three _ (by omega)), ?_⟩
      rw [List.cons_append, readTail_continuation (by split <;> omega) (by split <;> omega),
        List.cons_append, readTail_continuation (by omega) (by omega)]
      exact readTail_nil (by omega)
  | four h h' =>
      refine ⟨_, _, _, _, rfl, (congrArg leadByte (toNat_first (by omega))).trans
        (leadByte_four _ (by omega)), ?_⟩
      rw [List.cons_append, readTail_continuation (by split <;> omega) (by split <;> omega),
        List.cons_append, readTail_continuation (by omega) (by omega), List.cons_append,
        readTail_continuation (by omega) (by omega)]
      exact readTail_nil (by omega)

theorem charactersUpTo_encode : forall (s : Text) (n : Nat), (encode s).length ≤ n ->
    charactersUpTo n (encode s) = s.map some
  | [], 0, _ => rfl
  | [], _ + 1, _ => rfl
  | c :: s, n, h => by
      rcases reads_encodeChar c (encode s) with ⟨b, tail, value, ranges, hbytes, hlead, htail⟩
      have hsplit : encode (c :: s) = b :: (tail ++ encode s) := by
        rw [encode, List.flatMap_cons, hbytes, List.cons_append]
        rfl
      rw [hsplit, List.length_cons, List.length_append] at h
      rw [hsplit]
      cases n with
      | zero => omega
      | succ n =>
          rw [charactersUpTo, hlead]
          simp only [htail, charactersUpTo_encode s n (by omega), List.map_cons]

theorem characters_encode (s : Text) : characters (encode s) = s.map some :=
  charactersUpTo_encode s _ (Nat.le_refl _)

theorem decodeIgnore_encode (s : Text) : decodeIgnore (encode s) = s := by
  rw [decodeIgnore, characters_encode]
  simp

end Text
end RagService
