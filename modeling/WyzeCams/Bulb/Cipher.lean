import WyzeCams.Signaling.Payload

/-! The cipher of `src/src/util.js` for commands to local bulbs: AES in Node's `crypto`, behind a
padding of its own and a base64 text in which slashes are escaped. -/
namespace WyzeCams.Bulb
open Utf8 (Bytes)
open Utf16
open Signaling (fromBase64)

/-- `aes-128-cbc` of Node's `crypto` for a key and an initialization vector; `none` where
`decipher.final()` throws. -/
structure Cipher where
  encrypt (key iv data : Bytes) : Bytes
  decrypt (key iv data : Bytes) : Option Bytes

def Cipher.Inverts (cipher : Cipher) : Prop :=
  ∀ key iv data, key.length = 16 → iv.length = 16 →
    cipher.decrypt key iv (cipher.encrypt key iv data) = some data

/-- `Buffer.from(s, "ascii")` keeps the low byte of each code unit. -/
def ofAscii (s : JsString) : Bytes := s.map fun u => UInt8.ofNat u.toNat

/-- `buffer.toString("ascii")` clears the top bit of each byte. -/
def toAscii (bs : Bytes) : JsString := bs.map fun b => UInt16.ofNat (b.toNat % 128)

def BLOCK_SIZE : Nat := 16

def PADDING : UInt8 := 5

/-- A whole block where the length is a multiple of the block size. -/
def pad (plainText : JsString) : Bytes :=
  let raw := ofAscii plainText
  let padNum := BLOCK_SIZE - raw.length % BLOCK_SIZE
  raw ++ List.replicate padNum PADDING

def escapeSlashes (text : List Char) : List Char :=
  text.flatMap fun c => if c = '/' then ['\\', '/'] else [c]

/-- The ciphertext; `createCipheriv` throws for a key that has not 16 bytes. -/
def encrypted (cipher : Cipher) (key text : JsString) : Option Bytes :=
  let raw := pad text
  let keyBuffer := ofAscii key
  if keyBuffer.length = 16 then some (cipher.encrypt keyBuffer keyBuffer raw) else none

def wyzeEncrypt (cipher : Cipher) (key text : JsString) : Option (List Char) :=
  (encrypted cipher key text).map fun enc => escapeSlashes (Base64.encode enc)

/-- `none` where the decipher throws. -/
def wyzeDecrypt (cipher : Cipher) (key enc : JsString) : Option JsString :=
  let encBuffer := fromBase64 enc
  let keyBuffer := ofAscii key
  if keyBuffer.length = 16 then
    (cipher.decrypt keyBuffer keyBuffer encBuffer).map fun decrypt =>
      (toAscii decrypt).filter fun u => u ≠ 5
  else none

/-- Node passes over the backslashes. -/
theorem filterMap_escapeSlashes (t : List Char) :
    ((escapeSlashes t).takeWhile fun c => c ≠ '=').filterMap Signaling.base64Value =
      (t.takeWhile fun c => c ≠ '=').filterMap Signaling.base64Value := by
  induction t with
  | nil => rfl
  | cons c t ih =>
    rw [escapeSlashes, List.flatMap_cons, ← escapeSlashes]
    by_cases hslash : c = '/'
    · have hskip : Signaling.base64Value '\\' = none := by decide
      rw [if_pos hslash, hslash, List.cons_append, List.cons_append, List.nil_append,
        List.takeWhile_cons_of_pos (by decide), List.takeWhile_cons_of_pos (by decide),
        List.takeWhile_cons_of_pos (by decide), List.filterMap_cons_none hskip, List.filterMap_cons,
        List.filterMap_cons, ih]
    · rw [if_neg hslash, List.singleton_append]
      by_cases hpad : c = '='
      · rw [List.takeWhile_cons_of_neg (by simp [hpad]),
          List.takeWhile_cons_of_neg (by simp [hpad])]
      · rw [List.takeWhile_cons_of_pos (by simp [hpad]),
          List.takeWhile_cons_of_pos (by simp [hpad]),
          List.filterMap_cons, List.filterMap_cons, ih]

theorem isAscii_escapeSlashes {t : List Char} (h : ∀ c ∈ t, c.toNat < 128) :
    ∀ c ∈ escapeSlashes t, c.toNat < 128 := by
  intro c hc
  obtain ⟨d, hd, hc⟩ := List.mem_flatMap.mp hc
  split_ifs at hc
  · rcases List.mem_cons.mp hc with rfl | hc
    · decide
    · rw [List.mem_singleton.mp hc]
      decide
  · rw [List.mem_singleton.mp hc]
    exact h d hd

theorem fromBase64_escapeSlashes (bs : Bytes) :
    fromBase64 (ofText (escapeSlashes (Base64.encode bs))) = bs := by
  have hascii := Signaling.isAscii_encode bs
  have hplain := Signaling.fromBase64_encode bs
  rw [fromBase64, Signaling.map_ofText hascii] at hplain
  rw [fromBase64, Signaling.map_ofText (isAscii_escapeSlashes hascii)]
  rw [filterMap_escapeSlashes, hplain]

theorem toAscii_ofAscii (s : JsString) :
    toAscii (ofAscii s) = s.map fun u => UInt16.ofNat (u.toNat % 128) := by
  rw [toAscii, ofAscii, List.map_map]
  apply List.map_congr_left
  intro u _
  rw [Function.comp_apply, UInt8.toNat_ofNat', Nat.mod_mod_of_dvd _ (by decide)]

def stripped (text : JsString) : JsString :=
  (text.map fun u => UInt16.ofNat (u.toNat % 128)).filter fun u => u ≠ 5

theorem filter_toAscii_pad (text : JsString) :
    ((toAscii (pad text)).filter fun u => u ≠ 5) = stripped text := by
  have hpadding : ∀ n, ((toAscii (List.replicate n PADDING)).filter fun u => u ≠ 5) = [] := by
    intro n
    rw [toAscii, List.map_replicate, List.filter_replicate, if_neg (by decide)]
  rw [pad, toAscii, List.map_append, ← toAscii, ← toAscii, List.filter_append, hpadding,
    List.append_nil,
    toAscii_ofAscii]
  rfl

/-- The code units that survive: those of seven bits, except the one that pads. -/
def Survives (u : UInt16) : Prop := u.toNat ≤ 0x7F ∧ u.toNat ≠ 0x05

theorem stripped_eq_iff (text : JsString) : stripped text = text ↔ ∀ u ∈ text, Survives u := by
  constructor
  · intro h u hu
    rw [← h, stripped, List.mem_filter, List.mem_map] at hu
    obtain ⟨⟨v, -, hv⟩, hne⟩ := hu
    have hlt : u.toNat < 128 := by
      rw [← hv, UInt16.toNat_ofNat']
      omega
    refine ⟨by omega, fun hfive => ?_⟩
    have hu5 : u = 5 := UInt16.toNat_inj.mp hfive
    rw [hu5] at hne
    simp at hne
  · intro h
    have hmap : text.map (fun u => UInt16.ofNat (u.toNat % 128)) = text := by
      conv_rhs => rw [← List.map_id text]
      apply List.map_congr_left
      intro u hu
      have hlt := (h u hu).1
      rw [Nat.mod_eq_of_lt (by omega), UInt16.ofNat_toNat]
      rfl
    rw [stripped, hmap, List.filter_eq_self]
    intro u hu
    have hne := (h u hu).2
    rw [decide_eq_true_iff]
    intro hfive
    rw [hfive] at hne
    exact hne rfl

/-- What comes back of a text, whatever it was. -/
theorem wyzeDecrypt_wyzeEncrypt {cipher : Cipher} (hcipher : cipher.Inverts) {key : JsString}
    (hkey : key.length = 16) (text : JsString) :
    ((wyzeEncrypt cipher key text).bind fun enc => wyzeDecrypt cipher key (ofText enc)) =
      some (stripped text) := by
  have hlen : (ofAscii key).length = 16 := by rw [ofAscii, List.length_map, hkey]
  rw [wyzeEncrypt, encrypted, if_pos hlen, Option.map_some, Option.bind_some, wyzeDecrypt,
    if_pos hlen, fromBase64_escapeSlashes, hcipher _ _ _ hlen hlen, Option.map_some,
    filter_toAscii_pad]

/-- A text comes back exactly when its code units have seven bits and none of them is the one that
pads. -/
theorem round_trip_iff {cipher : Cipher} (hcipher : cipher.Inverts) {key : JsString}
    (hkey : key.length = 16) (text : JsString) :
    ((wyzeEncrypt cipher key text).bind fun enc => wyzeDecrypt cipher key (ofText enc)) =
      some text ↔ ∀ u ∈ text, Survives u := by
  rw [wyzeDecrypt_wyzeEncrypt hcipher hkey, Option.some_inj, stripped_eq_iff]

/-- The cipher under which two texts are each other's ciphertext, and every other one is its own. -/
def Cipher.exchange (plain enc : Bytes) : Cipher where
  encrypt _ _ data := if data = plain then enc else if data = enc then plain else data
  decrypt _ _ data := some (if data = plain then enc else if data = enc then plain else data)

theorem Cipher.exchange_inverts (plain enc : Bytes) : (Cipher.exchange plain enc).Inverts := by
  intro key iv data _ _
  simp only [Cipher.exchange, Option.some_inj]
  by_cases hplain : data = plain
  · by_cases henc : enc = plain
    · rw [if_pos hplain, if_pos henc, henc, hplain]
    · rw [if_pos hplain, if_neg henc, if_pos rfl, hplain]
  · by_cases henc : data = enc
    · rw [if_neg hplain, if_pos henc, if_pos rfl, henc]
    · rw [if_neg hplain, if_neg henc, if_neg hplain, if_neg henc]

def sampleKey : JsString := ofText "0123456789abcdef".toList

def sampleCipher : Cipher :=
  Cipher.exchange (pad (ofText ['\x7b', '\x7d']))
    [254, 18, 101, 152, 16, 116, 113, 238, 106, 118, 24, 87, 239, 243, 145, 157, 90, 96, 239, 179,
      8, 89, 165, 7, 255, 160, 27, 138, 15, 2, 98, 207]

/-- An object without members. -/
theorem round_trip_iff_braces :
    wyzeEncrypt sampleCipher sampleKey (ofText ['\x7b', '\x7d']) =
        some "\\/hJlmBB0ce5qdhhX7\\/ORnVpg77MIWaUH\\/6Abig8CYs8=".toList ∧
      (((wyzeEncrypt sampleCipher sampleKey (ofText ['\x7b', '\x7d'])).bind fun enc =>
          wyzeDecrypt sampleCipher sampleKey (ofText enc)) = some (ofText ['\x7b', '\x7d']) ↔
        ∀ u ∈ ofText ['\x7b', '\x7d'], Survives u) :=
  ⟨by decide +kernel, round_trip_iff (Cipher.exchange_inverts _ _) (by decide) _⟩

end WyzeCams.Bulb
