import WyzeCams.Lib.Utf8Decode

/-! UTF-8 that is decoded while it arrives: a decoder that takes one byte at a time and keeps what
it has of a character that is not complete yet. -/
namespace Utf8

/-- The bytes that the character still needs, the range of the next one, and the bits so far. -/
structure Decoder where
  needed : Nat
  lower : Nat
  upper : Nat
  code : Nat
  deriving DecidableEq, Repr

def Decoder.idle : Decoder := ⟨0, 0x80, 0xBF, 0⟩

def decodeFirst (b : UInt8) : Decoder × List Char :=
  let n := b.toNat
  if n < 0x80 then (.idle, [Char.ofNat n])
  else if 0xC2 ≤ n ∧ n ≤ 0xDF then (⟨1, 0x80, 0xBF, n - 0xC0⟩, [])
  else if 0xE0 ≤ n ∧ n ≤ 0xEF then
    (⟨2, if n = 0xE0 then 0xA0 else 0x80, if n = 0xED then 0x9F else 0xBF, n - 0xE0⟩, [])
  else if 0xF0 ≤ n ∧ n ≤ 0xF4 then
    (⟨3, if n = 0xF0 then 0x90 else 0x80, if n = 0xF4 then 0x8F else 0xBF, n - 0xF0⟩, [])
  else (.idle, [Char.ofNat 0xFFFD])

/-- A byte that cannot go on with the character begins the next one. -/
def decodeByte (d : Decoder) (b : UInt8) : Decoder × List Char :=
  if d.needed = 0 then decodeFirst b
  else if d.lower ≤ b.toNat ∧ b.toNat ≤ d.upper then
    let code := d.code * 0x40 + (b.toNat - 0x80)
    if d.needed = 1 then (.idle, [Char.ofNat code]) else (⟨d.needed - 1, 0x80, 0xBF, code⟩, [])
  else ((decodeFirst b).1, Char.ofNat 0xFFFD :: (decodeFirst b).2)

def decodeBytes : Decoder → Bytes → Decoder × List Char
  | d, [] => (d, [])
  | d, b :: bs =>
    let rest := decodeBytes (decodeByte d b).1 bs
    (rest.1, (decodeByte d b).2 ++ rest.2)

theorem decodeBytes_append (d : Decoder) (bs bs' : Bytes) :
    decodeBytes d (bs ++ bs') =
      ((decodeBytes (decodeBytes d bs).1 bs').1,
        (decodeBytes d bs).2 ++ (decodeBytes (decodeBytes d bs).1 bs').2) := by
  induction bs generalizing d with
  | nil => rfl
  | cons b bs ih => rw [List.cons_append, decodeBytes, ih, decodeBytes, List.append_assoc]

theorem toNat_ofNat_of_lt {n : Nat} (h : n < 256) : (UInt8.ofNat n).toNat = n := by
  rw [UInt8.toNat_ofNat', Nat.mod_eq_of_lt h]

/-- A byte in the range goes on with the character. -/
theorem decodeBytes_next {k lower upper code n : Nat} (hn : n < 256)
    (hrange : lower ≤ n ∧ n ≤ upper) (bs : Bytes) :
    decodeBytes ⟨k + 2, lower, upper, code⟩ (UInt8.ofNat n :: bs) =
      decodeBytes ⟨k + 1, 0x80, 0xBF, code * 0x40 + (n - 0x80)⟩ bs := by
  rw [decodeBytes, decodeByte, toNat_ofNat_of_lt hn]
  dsimp only
  rw [if_neg (by omega), if_pos hrange, if_neg (by omega)]
  rfl

/-- The last one completes it. -/
theorem decodeBytes_last {lower upper code n : Nat} (hn : n < 256)
    (hrange : lower ≤ n ∧ n ≤ upper) :
    decodeBytes ⟨1, lower, upper, code⟩ [UInt8.ofNat n] =
      (.idle, [Char.ofNat (code * 0x40 + (n - 0x80))]) := by
  rw [decodeBytes, decodeByte, toNat_ofNat_of_lt hn]
  dsimp only
  rw [if_neg (by omega), if_pos hrange, if_pos rfl]
  rfl

theorem decodeBytes_first {d : Decoder} {b : UInt8} (h : decodeFirst b = (d, [])) (bs : Bytes) :
    decodeBytes .idle (b :: bs) = decodeBytes d bs := by
  have hfirst : decodeByte .idle b = (d, []) := h
  rw [decodeBytes, hfirst]
  rfl

theorem decodeFirst_ascii {n : Nat} (h : n < 0x80) :
    decodeFirst (UInt8.ofNat n) = (.idle, [Char.ofNat n]) := by
  rw [decodeFirst, toNat_ofNat_of_lt (by omega)]
  exact if_pos h

theorem decodeFirst_two {n : Nat} (h : 0xC2 ≤ n ∧ n ≤ 0xDF) :
    decodeFirst (UInt8.ofNat n) = (⟨1, 0x80, 0xBF, n - 0xC0⟩, []) := by
  rw [decodeFirst, toNat_ofNat_of_lt (by omega), if_neg (by omega), if_pos h]

theorem decodeFirst_three {n : Nat} (h : 0xE0 ≤ n ∧ n ≤ 0xEF) :
    decodeFirst (UInt8.ofNat n) =
      (⟨2, if n = 0xE0 then 0xA0 else 0x80, if n = 0xED then 0x9F else 0xBF, n - 0xE0⟩, []) := by
  rw [decodeFirst, toNat_ofNat_of_lt (by omega), if_neg (by omega), if_neg (by omega), if_pos h]

theorem decodeFirst_four {n : Nat} (h : 0xF0 ≤ n ∧ n ≤ 0xF4) :
    decodeFirst (UInt8.ofNat n) =
      (⟨3, if n = 0xF0 then 0x90 else 0x80, if n = 0xF4 then 0x8F else 0xBF, n - 0xF0⟩, []) := by
  rw [decodeFirst, toNat_ofNat_of_lt (by omega), if_neg (by omega), if_neg (by omega),
    if_neg (by omega), if_pos h]

/-- A character is complete with its last byte, and not before. -/
theorem decodeBytes_char (c : Char) :
    decodeBytes .idle (String.utf8EncodeChar c) = (.idle, [c]) := by
  have hval : c.val.toNat = c.toNat := rfl
  have hvalid : c.toNat < 0xD800 ∨ 0xDFFF < c.toNat ∧ c.toNat < 0x110000 := c.valid
  rw [String.utf8EncodeChar, hval]
  split_ifs with h1 h2 h3
  · have hfirst : decodeByte .idle (UInt8.ofNat c.toNat) = (.idle, [Char.ofNat c.toNat]) :=
      decodeFirst_ascii (by omega)
    rw [decodeBytes, hfirst, Char.ofNat_toNat]
    rfl
  · have hcode : (c.toNat / 64 % 32 + 192 - 0xC0) * 0x40 +
      (c.toNat % 64 + 128 - 0x80) = c.toNat := by
      omega
    rw [decodeBytes_first (decodeFirst_two (by omega)),
      decodeBytes_last (by omega) (by omega), hcode,
      Char.ofNat_toNat]
  · have hcode : ((c.toNat / 4096 % 16 + 224 - 0xE0) * 0x40 +
      (c.toNat / 64 % 64 + 128 - 0x80)) * 0x40 +
        (c.toNat % 64 + 128 - 0x80) = c.toNat := by omega
    rw [decodeBytes_first (decodeFirst_three (by omega)),
      decodeBytes_next (by omega) (by split_ifs <;> omega), decodeBytes_last (by omega) (by omega),
      hcode, Char.ofNat_toNat]
  · have hcode : (((c.toNat / 262144 % 8 + 240 - 0xF0) * 0x40 +
        (c.toNat / 4096 % 64 + 128 - 0x80)) * 0x40 + (c.toNat / 64 % 64 + 128 - 0x80)) * 0x40 +
        (c.toNat % 64 + 128 - 0x80) = c.toNat := by omega
    rw [decodeBytes_first (decodeFirst_four (by omega)),
      decodeBytes_next (by omega) (by split_ifs <;> omega),
      decodeBytes_next (by omega) (by omega), decodeBytes_last (by omega) (by omega), hcode,
      Char.ofNat_toNat]

theorem decodeBytes_encode (text : List Char) :
    decodeBytes .idle (encode text) = (.idle, text) := by
  induction text with
  | nil => rfl
  | cons c text ih =>
    have hsplit : encode (c :: text) = String.utf8EncodeChar c ++ encode text := List.flatMap_cons
    rw [hsplit, decodeBytes_append, decodeBytes_char]
    dsimp only
    rw [ih]
    rfl

end Utf8
